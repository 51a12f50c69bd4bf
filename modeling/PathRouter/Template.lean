import PathRouter.Segment

/-!
# Route templates

A route template is read from a text by dropping its first character, the leading slash, and
cutting the rest at the slashes. Any text can be read.
-/
namespace PathRouter

/-- A route template. Its text `raw` is its identity. -/
structure Template where
  raw : String
  segments : List Segment
  deriving DecidableEq, Repr

namespace Template

def parse (raw : String) : Template :=
  ⟨raw, (raw.toList.tail.splitOn '/').map Segment.ofChars⟩

def isDynamic (template : Template) : Bool := template.segments.any Segment.isDynamic

/-- The names of all segments that have one, in order and with repetitions. -/
def paramNames (template : Template) : List String := template.segments.filterMap Segment.name

@[simp] theorem raw_parse (raw : String) : (parse raw).raw = raw := rfl

/-- The texts of the segments, joined by slashes, are the text without its first character. -/
theorem intercalate_values_parse (raw : String) :
    ['/'].intercalate ((parse raw).segments.map fun s => s.value.toList) = raw.toList.tail := by
  have h : (fun s : Segment => s.value.toList) ∘ Segment.ofChars = id := by
    funext text
    simp
  rw [parse, List.map_map, h, List.map_id, List.intercalate_splitOn]

end Template

end PathRouter
