import Manuscript.Yaml.Load

/-! # Metadata of one entry

A mapping of one entry, whose key is a text, has the value of that entry under the
key, or gives up where the value does (`load_entry`).
-/

namespace Manuscript.Yaml

/-- The tree of one entry. -/
def Node.entry (key : LooseText) (value : Node) : Node := .mapping .map [(.scalar .str key, value)]

theorem parts_entry (key : LooseText) (value : Node) :
    (Node.entry key value).parts = [.entry (.scalar .str key) value] := by
  simp [Node.entry, Node.parts, flatten, parted, Node.tag?, Node.asKey, Part.ofEntry,
    Node.isCollection, Tag.isCollection]

theorem build_text (fuel depth : Nat) (text : LooseText) :
    build (fuel + 1) depth (.scalar .str text) = .ok (.text text) := rfl

theorem build_entry (fuel depth : Nat) (key : LooseText) (value : Node) :
    build (fuel + 2) depth (.entry key value) =
      (build (fuel + 1) (depth + 1) value).map fun v => .mapping [(.text key, v)] := by
  have hopen : build (fuel + 2) depth (.entry key value) =
      (buildAll (buildPart (depth + 1) (build (fuel + 1) (depth + 1)))
        (Node.entry key value).parts).map (collect .map) := rfl
  rw [hopen, parts_entry, buildAll, buildAll, buildPart, build_text]
  cases build (fuel + 1) (depth + 1) value <;> rfl

theorem load_entry {text : String} {tokens : Tokens} {key : LooseText} {value : Node}
    (htokens : Tokens.ofText text.toList = tokens)
    (htree : Node.ofTokens tokens = .ok (some (.entry key value))) :
    load text = ((build (max 1 value.height + 1) 1 value).map fun v =>
      .mapping [(.text key, v)]).mapError Fault.error := by
  have hheight : (Node.entry key value).height + 1 = max 1 value.height + 2 := by
    simp only [Node.entry, Node.height, entriesHeight]
    omega
  have hload : load text = (build ((Node.entry key value).height + 1) 0
      (.entry key value)).mapError Fault.error := by
    rw [load, htokens, htree]
    rfl
  rw [hload, hheight, build_entry]

end Manuscript.Yaml
