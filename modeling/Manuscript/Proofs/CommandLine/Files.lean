import Manuscript.CommandLine.World
import Manuscript.Proofs.Text.Split

/-! # Files of a world

A path leads to at most one file, which is there or can be made, and which the system may
keep from an access. Giving that file a content makes no directory, so that every path leads
where it led before (`fileAt?_put`), and its content is found at every path that leads to it.
-/

namespace Manuscript.CommandLine

namespace World

/-- The file of a place, which is there or can be made. -/
def Place.file? : Place → Option String
  | .file name => some name
  | .directory | .unreachable _ => none

/-- The file that a path leads to, if the system does not keep it from the access. -/
def fileAt? (world : World) (access : Access) (path : String) : Option String :=
  (world.locate access path).toOption

variable (world : World)

/-! ## Contents -/

/-- One file among others with a new content. -/
def replaced (name : String) (content : ByteArray) (file : String × ByteArray) :
    String × ByteArray :=
  if file.1 == name then (name, content) else file

theorem replaced_fst (name : String) (content : ByteArray) (file : String × ByteArray) :
    (replaced name content file).1 = file.1 := by
  unfold replaced
  split <;> simp_all

theorem find?_replaced (name : String) (content : ByteArray) (files : List (String × ByteArray))
    (other : String) :
    (files.map (replaced name content)).find? (·.1 == other) =
      (files.find? (·.1 == other)).map (replaced name content) := by
  simp only [List.find?_map, Function.comp_def, replaced_fst]

/-- Giving a file a content changes that of no other file. -/
theorem content?_put (name : String) (content : ByteArray) (other : String) :
    (world.put name content).content? other =
      if other = name then some content else world.content? other := by
  unfold content? put
  split
  next hany =>
    have hreplaced := find?_replaced name content world.files other
    unfold replaced at hreplaced
    rw [hreplaced, Option.map_map]
    split
    next hother =>
      subst hother
      obtain ⟨file, hfile⟩ := Option.isSome_iff_exists.mp
        (List.find?_isSome.mpr (List.any_eq_true.mp hany))
      have hname := List.find?_some hfile
      simp_all
    next hother =>
      refine Option.map_congr fun file hfile => ?_
      have hname := List.find?_some hfile
      simp_all
  next hany =>
    have hnone : world.files.find? (·.1 == name) = none := by
      rw [List.find?_eq_none]
      intro file hmem hname
      exact hany (List.any_eq_true.mpr ⟨file, hmem, hname⟩)
    by_cases hother : other = name
    · subst hother
      simp [List.find?_append, hnone]
    · have hne : (name == other) = false := by simpa using Ne.symm hother
      simp [List.find?_append, hne, hother]

@[simp] theorem put_input (name : String) (content : ByteArray) :
    (world.put name content).input = world.input := by
  unfold put
  split <;> rfl

@[simp] theorem put_output (name : String) (content : ByteArray) :
    (world.put name content).output = world.output := by
  unfold put
  split <;> rfl

@[simp] theorem put_here (name : String) (content : ByteArray) :
    (world.put name content).here = world.here := by
  unfold put
  split <;> rfl

@[simp] theorem put_folders (name : String) (content : ByteArray) :
    (world.put name content).folders = world.folders := by
  unfold put
  split <;> rfl

@[simp] theorem put_refuses (name : String) (content : ByteArray) :
    (world.put name content).refuses = world.refuses := by
  unfold put
  split <;> rfl

/-- The names of the files after one was given a content: there is at most that name more. -/
theorem any_put (test : String → Bool) (name : String) (content : ByteArray) :
    ((world.put name content).files.any fun file => test file.1) =
      ((world.files.any fun file => test file.1) || test name) := by
  unfold put
  split
  next hany =>
    obtain ⟨file, hmem, hname⟩ := List.any_eq_true.mp hany
    have hnames : ((world.files.map (replaced name content)).any fun file => test file.1) =
        world.files.any fun file => test file.1 := by
      simp only [List.any_map, Function.comp_def, replaced_fst]
    unfold replaced at hnames
    rw [hnames, eq_comm, Bool.or_eq_left_iff_imp]
    intro htest
    rw [beq_iff_eq] at hname
    exact List.any_eq_true.mpr ⟨file, hmem, hname ▸ htest⟩
  next => simp

theorem any_names_put (test : String → Bool) (name : String) (content : ByteArray) :
    (world.put name content).names.any test = (world.names.any test || test name) := by
  simp only [names, put_here, put_folders, List.any_append, List.any_map, Function.comp_def]
  rw [any_put, Bool.or_assoc]

/-! ## Directories -/

theorem nameOf_cons (step : String) {dir : List String} (hdir : dir ≠ []) :
    nameOf (step :: dir) = nameOf dir ++ "/" ++ step := by
  rw [nameOf, List.reverse_cons, String.intercalate_append_of_ne_nil (by simpa) (by simp),
    String.intercalate_singleton, nameOf]

/-- What is after the last separator holds no start that ends in a separator. -/
theorem prefix_of_not_mem {α : Type} {c : α} {start before rest : List α} (hrest : c ∉ rest)
    (hstart : start ++ [c] <+: before ++ rest) : start ++ [c] <+: before := by
  rcases List.prefix_or_prefix_of_prefix hstart (List.prefix_append before rest) with h | h
  · exact h
  · rcases List.prefix_concat_iff.mp h with rfl | ⟨more, rfl⟩
    · exact List.prefix_rfl
    · rw [List.append_assoc, List.prefix_append_right_inj] at hstart
      exact absurd (hstart.subset (by simp)) hrest

/-- What is above a directory is a directory. -/
theorem isDirectory_of_prefix {dir steps : List String} (hne : dir ≠ [])
    (hdir : world.isDirectory dir = true)
    (habove : (nameOf steps ++ "/").toList <+: (nameOf dir ++ "/").toList) :
    world.isDirectory steps = true := by
  obtain ⟨last, above, rfl⟩ := List.exists_cons_of_ne_nil hne
  simp only [isDirectory, List.isEmpty_cons, Bool.false_or, List.any_eq_true] at hdir
  obtain ⟨name, hmem, hname⟩ := hdir
  rw [List.isPrefixOf_iff_prefix] at hname
  simp only [isDirectory, Bool.or_eq_true, List.any_eq_true]
  exact .inr ⟨name, hmem, List.isPrefixOf_iff_prefix.mpr (habove.trans hname)⟩

/-- The working directory is one. -/
theorem isDirectory_here : world.isDirectory world.here = true := by
  have hmem : nameOf world.here ++ "/" ∈ world.names := by
    simp [names]
  simp only [isDirectory, Bool.or_eq_true, List.any_eq_true]
  exact .inr ⟨_, hmem, List.isPrefixOf_iff_prefix.mpr List.prefix_rfl⟩

/-- What a directory stands in is a directory. -/
theorem isDirectory_above {step : String} {dir : List String}
    (hdir : world.isDirectory (step :: dir) = true) : world.isDirectory dir = true := by
  cases dir with
  | nil => rfl
  | cons last above =>
      refine world.isDirectory_of_prefix (by simp) hdir ?_
      rw [nameOf_cons step (by simp)]
      simp only [String.toList_append, List.append_assoc, List.prefix_append_right_inj]
      exact List.prefix_append _ _

/-- The file of a last step in a directory gives rise to no directory that is not there. -/
theorem isDirectory_of_isPrefixOf {step : String} {dir steps : List String}
    (hstep : '/' ∉ step.toList) (hdir : world.isDirectory dir = true)
    (hbelow : (nameOf steps ++ "/").toList.isPrefixOf (nameOf (step :: dir)).toList = true) :
    world.isDirectory steps = true := by
  rw [List.isPrefixOf_iff_prefix, String.toList_append] at hbelow
  cases dir with
  | nil =>
      have hnil : nameOf [step] = step := by simp [nameOf]
      rw [hnil, ← List.nil_append step.toList] at hbelow
      exact absurd (prefix_of_not_mem hstep hbelow) (by simp)
  | cons last above =>
      rw [nameOf_cons _ (by simp), String.toList_append] at hbelow
      refine world.isDirectory_of_prefix (by simp) hdir ?_
      rw [String.toList_append]
      exact prefix_of_not_mem hstep hbelow

/-- Giving a file in a directory a content makes no directory. -/
theorem isDirectory_put {step : String} {dir : List String} (hstep : '/' ∉ step.toList)
    (hdir : world.isDirectory dir = true) (content : ByteArray) (steps : List String) :
    (world.put (nameOf (step :: dir)) content).isDirectory steps = world.isDirectory steps := by
  rw [isDirectory, any_names_put, ← Bool.or_assoc, ← isDirectory, Bool.or_eq_left_iff_imp]
  exact world.isDirectory_of_isPrefixOf hstep hdir

/-! ## Places -/

theorem mem_pathSteps {path step : String} (hstep : step ∈ pathSteps path) :
    '/' ∉ step.toList := by
  obtain ⟨hstep, -⟩ := List.mem_filter.mp hstep
  obtain ⟨part, hpart, rfl⟩ := List.mem_map.mp hstep
  intro hmem
  rw [String.toList_ofList] at hmem
  simpa using (Text.of_mem_splitBy hpart hmem).1

theorem isDirectory_tail {dir : List String} (hdir : world.isDirectory dir = true) :
    world.isDirectory dir.tail = true := by
  cases dir with
  | nil => rfl
  | cons step above => exact world.isDirectory_above hdir

/-- A file that is found by following steps stands in a directory. -/
theorem exists_of_follow {dir steps : List String} {name : String}
    (hdir : world.isDirectory dir = true) (hsteps : ∀ step ∈ steps, '/' ∉ step.toList)
    (hname : (world.follow dir steps).file? = some name) :
    ∃ step above, name = nameOf (step :: above) ∧ '/' ∉ step.toList ∧
      world.isDirectory above = true := by
  fun_induction follow world dir steps with
  | case1 | case5 => cases hname
  | case2 dir rest ih =>
      exact ih (world.isDirectory_tail hdir) (List.forall_mem_cons.mp hsteps).2 hname
  | case3 dir step rest _ there hthere ih =>
      exact ih hthere (List.forall_mem_cons.mp hsteps).2 hname
  | case4 dir step =>
      cases hname
      exact ⟨step, dir, rfl, hsteps step List.mem_cons_self, hdir⟩

/-- A step down leads to a directory, or to the file that a path ends in. -/
theorem follow_file?_cons {step : String} (hdown : step ≠ "..") (dir rest : List String) :
    (world.follow dir (step :: rest)).file? =
      if world.isDirectory (step :: dir) then (world.follow (step :: dir) rest).file?
      else if rest.isEmpty then some (nameOf (step :: dir)) else none := by
  rw [follow.eq_def]
  split
  next heq => cases heq
  next heq =>
    cases heq
    exact absurd rfl hdown
  next heq =>
    cases heq
    rw [apply_ite Place.file?, apply_ite Place.file?]
    rfl

/-- The same steps lead to the same file when the directories are the same. -/
theorem follow_file?_congr (other : World)
    (hsame : ∀ steps, other.isDirectory steps = world.isDirectory steps)
    (dir steps : List String) :
    (other.follow dir steps).file? = (world.follow dir steps).file? := by
  induction steps generalizing dir with
  | nil => rw [follow, follow]
  | cons step rest ih =>
      by_cases hup : step = ".."
      · subst hup
        rw [follow, follow, ih]
      · rw [follow_file?_cons _ hup, follow_file?_cons _ hup, hsame, ih]

/-! ## Accesses -/

/-- A path leads to a file exactly if the system can be asked for it, the file is there or can be
made, and the access is not refused. -/
theorem locate_ok_iff (access : Access) (path name : String) :
    world.locate access path = .ok name ↔
      holdsZero path = false ∧ (world.place path).file? = some name ∧
        world.refuses access name = none := by
  unfold locate
  split
  next hzero => simp [hzero]
  next hzero =>
    simp only [Bool.not_eq_true] at hzero
    cases world.place path with
    | directory => simp [Place.file?]
    | unreachable throughFile => cases throughFile <;> simp [Place.file?]
    | file found =>
        simp only [hzero, Place.file?, Option.some.injEq, true_and]
        cases hrefuses : world.refuses access found with
        | none =>
            constructor
            · intro hfound
              cases hfound
              exact ⟨rfl, hrefuses⟩
            · rintro ⟨rfl, -⟩
              rfl
        | some refusal =>
            constructor
            · intro herror
              cases herror
            · rintro ⟨rfl, hnone⟩
              cases hrefuses.symm.trans hnone

/-- A path is not even asked for exactly if the character zero stands in it. -/
theorem locate_zeroInPath_iff (access : Access) (path : String) :
    world.locate access path = .error .zeroInPath ↔ holdsZero path = true := by
  unfold locate
  split
  next hzero => simp [hzero]
  next hzero =>
    refine iff_of_false ?_ hzero
    cases world.place path with
    | file name =>
        dsimp only
        split <;> nofun
    | directory => nofun
    | unreachable throughFile => cases throughFile <;> nofun

theorem fileAt?_eq_some_iff (access : Access) (path name : String) :
    world.fileAt? access path = some name ↔ world.locate access path = .ok name := by
  unfold fileAt?
  cases world.locate access path <;> simp [Except.toOption]

/-- Paths lead to the same files when the directories are the same. -/
theorem fileAt?_congr (other : World) (hhere : other.here = world.here)
    (hrefuses : other.refuses = world.refuses)
    (hsame : ∀ steps, other.isDirectory steps = world.isDirectory steps) (access : Access)
    (path : String) : other.fileAt? access path = world.fileAt? access path := by
  apply Option.ext
  intro name
  rw [fileAt?_eq_some_iff, fileAt?_eq_some_iff, locate_ok_iff, locate_ok_iff, place, place, hhere,
    hrefuses, world.follow_file?_congr other hsame]

/-- Giving a file that a path leads to a content changes no path. -/
theorem fileAt?_put {access : Access} {path name : String}
    (hname : world.fileAt? access path = some name) (content : ByteArray) (other : Access)
    (otherPath : String) :
    (world.put name content).fileAt? other otherPath = world.fileAt? other otherPath := by
  obtain ⟨-, hplace, -⟩ := (world.locate_ok_iff ..).mp ((world.fileAt?_eq_some_iff ..).mp hname)
  have hstart : world.isDirectory (if isAbsolutePath path then [] else world.here) = true := by
    split
    next => rfl
    next => exact world.isDirectory_here
  obtain ⟨step, dir, rfl, hstep, hdir⟩ :=
    world.exists_of_follow hstart (fun step => mem_pathSteps) hplace
  exact world.fileAt?_congr _ (world.put_here ..) (world.put_refuses ..)
    (world.isDirectory_put hstep hdir content) other otherPath

/-! ## Effects -/

/-- A file is read exactly if its path leads to one that has a content. -/
theorem read_ok_iff (path : String) (content : ByteArray) :
    world.read path = .ok content ↔
      ∃ name, world.fileAt? .read path = some name ∧ world.content? name = some content := by
  simp only [fileAt?_eq_some_iff]
  unfold read
  cases world.locate .read path with
  | error e => simp [bind, Except.bind]
  | ok name =>
      cases hcontent : world.content? name <;>
        simp [bind, Except.bind, hcontent, pure, Except.pure, throw, throwThe, MonadExceptOf.throw]

/-- The file that a path leads to can be changed. -/
theorem change_eq {path name : String} (hname : world.fileAt? .write path = some name)
    (change : ByteArray → ByteArray) :
    world.change path change =
      .ok (world.put name (change ((world.content? name).getD .empty))) := by
  rw [World.change, (world.fileAt?_eq_some_iff ..).mp hname]
  rfl

theorem change_error_iff (path : String) (change : ByteArray → ByteArray) (e : FileError) :
    world.change path change = .error e ↔ world.locate .write path = .error e := by
  unfold World.change
  cases world.locate .write path with
  | ok name => exact ⟨nofun, nofun⟩
  | error e' =>
      constructor <;>
        · intro herror
          cases herror
          rfl

/-- Nothing is changed at a path that leads to no file. -/
theorem change_error {path : String} (hnone : world.fileAt? .write path = none)
    (change : ByteArray → ByteArray) : ∃ e, world.change path change = .error e := by
  simp only [change_error_iff]
  unfold fileAt? at hnone
  cases hlocate : world.locate .write path with
  | ok name =>
      rw [hlocate] at hnone
      cases hnone
  | error e => exact ⟨e, rfl⟩

/-- A change that is not possible leaves everything as it was. -/
theorem run_tryChange (path : String) (change : ByteArray → ByteArray) :
    (tryChange path change).run world =
      match world.change path change with
      | .ok after => (.ok (), after)
      | .error e => (.error e, world) := by
  have hrun : (tryChange path change).run world =
      (match world.change path change with
        | .ok after => do set after; return .ok ()
        | .error e => return .error e : StateM World (Except FileError Unit)).run world := rfl
  rw [hrun]
  cases world.change path change <;> rfl

end World

end Manuscript.CommandLine
