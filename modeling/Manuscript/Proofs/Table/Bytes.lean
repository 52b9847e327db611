import Manuscript.Proofs.Table.Cellwise
import Manuscript.Proofs.Table.Lines
import Manuscript.Proofs.Text.PlainBytes

/-! # Layout of bytes

Bytes have no layout exactly if there are none of them, they are no text, or no line
is ended (`layoutBytes_error_iff`). Otherwise the layout is the aligned text, cut at
its first line feed, and nothing is lost in between (`layout_of_bytes`).
-/

namespace Manuscript.Table

/-- The byte that ends a line. -/
def lineFeed : UInt8 := 0x0a

/-- The number of lines of a text that is given by its bytes. -/
def lineCount (bytes : ByteArray) : Nat := (bytes.toList.splitOn lineFeed).length

/-- Line feeds are counted alike in characters and in bytes. -/
theorem count_lineFeed (s : String) : s.toUTF8.toList.count lineFeed = s.toList.count '\n' := by
  have hplain : '\n'.toNat < 128 := by decide
  exact Text.count_toUTF8 hplain s

/-- The number of lines of an encoded text. -/
theorem lineCount_toUTF8 (s : String) : lineCount s.toUTF8 = s.toList.count '\n' + 1 := by
  rw [lineCount, ← Text.splitBy_eq_splitOn, Text.length_splitBy, ← count_lineFeed, List.count]

theorem lineFeed_mem_toUTF8 (s : String) : lineFeed ∈ s.toUTF8.toList ↔ '\n' ∈ s.toList := by
  rw [← List.count_pos_iff, count_lineFeed, List.count_pos_iff]

theorem fromUTF8?_eq_none_iff (bytes : ByteArray) :
    String.fromUTF8? bytes = none ↔ ¬ bytes.IsValidUTF8 := by
  unfold String.fromUTF8?
  split
  next hvalid => simp [hvalid]
  next hvalid => simp [hvalid]

theorem eq_toUTF8_of_fromUTF8? {bytes : ByteArray} {s : String}
    (hread : String.fromUTF8? bytes = some s) : bytes = s.toUTF8 := by
  unfold String.fromUTF8? at hread
  split at hread
  next hvalid =>
    cases hread
    rfl
  next => cases hread

/-- Bytes that were read as a text are laid out as that text. -/
theorem layoutBytes_of_text {buffer : ByteArray} {text : String}
    (hread : String.fromUTF8? buffer = some text) (padding : Int) :
    layoutBytes buffer padding = layout text padding := by
  rw [layoutBytes, hread]

/-- A buffer has no layout if it is empty, has no reading, or has no line feed. -/
theorem layoutBytes_error_iff (buffer : ByteArray) (padding : Int) :
    (∃ error, layoutBytes buffer padding = .error error) ↔
      buffer.toList = [] ∨ ¬ buffer.IsValidUTF8 ∨ lineFeed ∉ buffer.toList := by
  cases hread : String.fromUTF8? buffer with
  | none =>
      have hinvalid := (fromUTF8?_eq_none_iff buffer).mp hread
      refine iff_of_true ⟨.notText, ?_⟩ (.inr (.inl hinvalid))
      rw [layoutBytes, hread]
  | some text =>
      have hbuffer := eq_toUTF8_of_fromUTF8? hread
      have hvalid : buffer.IsValidUTF8 := by
        rw [hbuffer]
        exact text.isValidUTF8
      have hfeed : lineFeed ∈ buffer.toList ↔ '\n' ∈ text.toList := by
        rw [hbuffer, lineFeed_mem_toUTF8]
      -- Where there are no bytes, there is no line feed either.
      have hempty : buffer.toList = [] → lineFeed ∉ buffer.toList := by
        intro hnil
        rw [hnil]
        exact List.not_mem_nil
      rw [layoutBytes_of_text hread, layout_error_iff, ← hfeed]
      tauto

/-! ## The two parts -/

theorem eq_of_firstLine?_eq_some {text line rest : List Char}
    (hcut : firstLine? text = some (line, rest)) : text = line ++ '\n' :: rest ∧ '\n' ∉ line := by
  fun_induction firstLine? text generalizing line rest with
  | case1 => cases hcut
  | case2 rest' =>
      cases hcut
      exact ⟨rfl, List.not_mem_nil⟩
  | case3 c text hc ih =>
      obtain ⟨⟨line', rest'⟩, hrest, hline⟩ := Option.map_eq_some_iff.mp hcut
      cases hline
      obtain ⟨rfl, hfeed⟩ := ih hrest
      refine ⟨rfl, ?_⟩
      rw [List.mem_cons, not_or]
      exact ⟨fun heq => hc heq.symm, hfeed⟩

/-- A layout is the aligned text, cut at its first line feed. -/
theorem align_of_layout {text : String} {padding : Int} {result : Layout}
    (hlayout : layout text padding = .ok result) :
    align text padding = result.header ++ "\n" ++ result.body ∧ '\n' ∉ result.header.toList := by
  unfold layout at hlayout
  split at hlayout
  next => cases hlayout
  next =>
    split at hlayout
    next header body hcut =>
      cases hlayout
      obtain ⟨hparts, hfeed⟩ := eq_of_firstLine?_eq_some hcut
      refine ⟨?_, by simpa using hfeed⟩
      rw [← String.toList_inj, hparts]
      simp
    next => cases hlayout

/-- The first line that is laid out is the first line of the text, aligned. -/
theorem head?_layOut (padding : Int) {text first : List Char} {others : List (List Char)}
    (hlines : text.splitOn '\n' = first :: others) :
    (layOut padding [] (rowsOf text)).head? =
      some (alignedLine padding (first :: others) 0 first) := by
  have hplace : 0 < (first :: others).length := Nat.zero_lt_succ _
  rw [rowsOf_eq, hlines, layOut_eq_mapIdx, List.map_cons, List.mapIdx_cons, List.head?_cons]
  exact congrArg some (write_ofLine hplace)

/-- The header is the first line of the text, aligned. -/
theorem header_of_layout {text : String} {padding : Int} {result : Layout}
    (hlayout : layout text padding = .ok result) :
    ∃ first others, text.toList.splitOn '\n' = first :: others ∧
      result.header.toList = alignedLine padding (first :: others) 0 first := by
  obtain ⟨halign, hfeed⟩ := align_of_layout hlayout
  obtain ⟨first, others, hlines⟩ :=
    List.exists_cons_of_ne_nil (List.splitOn_ne_nil '\n' text.toList)
  refine ⟨first, others, hlines, ?_⟩
  have hparts : (align text padding).toList =
      result.header.toList ++ '\n' :: result.body.toList := by
    rw [halign]
    simp
  have hhead := head?_layOut padding hlines
  rw [← lines_align, hparts, Text.splitBy_eq_splitOn,
    List.splitOn_append_cons_self_of_not_mem hfeed, List.head?_cons] at hhead
  exact Option.some.inj hhead

/-- Bytes have no layout exactly if there are none, they are no text, or they hold no line feed. The
header of a layout is the first line of the text, aligned. It holds no line feed, and header, line
feed and body are the bytes of the aligned text, which has as many lines as the text. -/
theorem layout_of_bytes (buffer : ByteArray) (padding : Int) :
    ((∃ error, layoutBytes buffer padding = .error error) ↔
      buffer.toList = [] ∨ ¬ buffer.IsValidUTF8 ∨ lineFeed ∉ buffer.toList) ∧
    ∀ result, layoutBytes buffer padding = .ok result →
      ∃ text first others, buffer = text.toUTF8 ∧ text.toList.splitOn '\n' = first :: others ∧
        result.header.toList = alignedLine padding (first :: others) 0 first ∧
        lineFeed ∉ result.header.toUTF8.toList ∧
        result.header.toUTF8 ++ "\n".toUTF8 ++ result.body.toUTF8 =
          (align text padding).toUTF8 ∧
        lineCount result.header.toUTF8 + lineCount result.body.toUTF8 = lineCount buffer := by
  refine ⟨layoutBytes_error_iff buffer padding, ?_⟩
  intro result hresult
  cases hread : String.fromUTF8? buffer with
  | none =>
      rw [layoutBytes, hread] at hresult
      cases hresult
  | some text =>
      have hbuffer := eq_toUTF8_of_fromUTF8? hread
      rw [layoutBytes_of_text hread] at hresult
      obtain ⟨halign, hfeed⟩ := align_of_layout hresult
      obtain ⟨first, others, hlines, hheader⟩ := header_of_layout hresult
      refine ⟨text, first, others, hbuffer, hlines, hheader, ?_, ?_, ?_⟩
      · rwa [lineFeed_mem_toUTF8]
      · simp only [halign, String.toUTF8_eq_toByteArray, String.toByteArray_append]
      · have hend : "\n".toList.count '\n' = 1 := rfl
        rw [hbuffer, lineCount_toUTF8, lineCount_toUTF8, lineCount_toUTF8,
          ← count_lineFeed_align text padding, halign, String.toList_append, String.toList_append,
          List.count_append, List.count_append]
        omega

end Manuscript.Table
