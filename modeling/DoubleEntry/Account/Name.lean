import DoubleEntry.Account.Kind
import DoubleEntry.Text.Lines

/-! Account names: a kind and the segments of a path below it, written with colons between. -/
namespace DoubleEntry

def accountSeparator : Char := ':'

/-- A segment may be any text but the empty one, as long as it holds no separator. -/
def isSegmentName (segment : String) : Bool :=
  segment ≠ "" && !segment.toList.contains accountSeparator

structure AccountName where
  kind : AccountKind
  segments : List String
  segments_ne_nil : segments ≠ []
  segments_valid : ∀ segment ∈ segments, isSegmentName segment = true
  deriving DecidableEq, Repr

/-- Why a kind and segments make no account name. -/
inductive NameError where
  | noSegments (kind : AccountKind)
  | invalidSegment (segment : String)
  deriving DecidableEq, Repr

def NameError.message : NameError → String
  | .noSegments kind => kind.text ++ " account needs at least one segment"
  | .invalidSegment segment => "invalid account segment `" ++ segment ++ "'"

namespace AccountName

def ofParts (kind : AccountKind) (segments : List String) : Except NameError AccountName :=
  if nil : segments = [] then .error (.noSegments kind)
  else
    match h : segments.find? (!isSegmentName ·) with
    | some segment => .error (.invalidSegment segment)
    | none => .ok ⟨kind, segments, nil, by simpa using h⟩

def chars (a : AccountName) : List Char :=
  Text.joinWith accountSeparator (a.kind.text.toList :: a.segments.map String.toList)

def text (a : AccountName) : String := .ofList a.chars

def ofText? (text : String) : Option AccountName :=
  let (kind, segments) := Text.splitAt accountSeparator text.toList
  (AccountKind.ofText? (.ofList kind)).bind fun kind =>
    (ofParts kind (segments.map String.ofList)).toOption

theorem separator_not_mem_kind (kind : AccountKind) : accountSeparator ∉ kind.text.toList := by
  cases kind <;> decide

theorem ofParts_parts (a : AccountName) : ofParts a.kind a.segments = .ok a := by
  have valid : a.segments.find? (!isSegmentName ·) = none := by
    simpa using a.segments_valid
  unfold ofParts
  rw [dif_neg a.segments_ne_nil]
  split
  · rename_i segment h
    rw [valid] at h
    contradiction
  · rfl

theorem separator_not_mem_parts (a : AccountName) :
    ∀ cs ∈ a.kind.text.toList :: a.segments.map String.toList, accountSeparator ∉ cs := by
  intro cs mem
  rcases List.mem_cons.1 mem with rfl | mem
  · exact separator_not_mem_kind a.kind
  · obtain ⟨segment, segMem, rfl⟩ := List.mem_map.1 mem
    have valid := a.segments_valid segment segMem
    simp only [isSegmentName, Bool.and_eq_true] at valid
    simpa using valid.2

theorem splitAt_chars (a : AccountName) :
    Text.splitAt accountSeparator a.chars = (a.kind.text.toList, a.segments.map String.toList) :=
  Text.splitAt_joinWith a.separator_not_mem_parts

/-- Every account name can be read back from its written form. -/
theorem ofText?_text (a : AccountName) : ofText? a.text = some a := by
  simp only [ofText?, text, String.toList_ofList, splitAt_chars, String.ofList_toList,
    AccountKind.ofText?_text, Option.bind_some, List.map_map]
  have : a.segments.map (String.ofList ∘ String.toList) = a.segments := by
    simp [Function.comp_def]
  rw [this, ofParts_parts]
  rfl

end AccountName
end DoubleEntry
