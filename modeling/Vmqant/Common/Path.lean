import Mathlib

/-!
# Rooted paths

What Go's `path.Join` makes of elements of which the first starts with a slash: the segments between the
slashes are put on the path one by one, where an empty segment and `.` do nothing and `..` takes the last
segment away. The path is written with a slash before each segment, or as one slash.
-/

namespace Path

abbrev Text := List Char

def push (path : List Text) (segment : Text) : List Text :=
  if segment = [] ∨ segment = ['.'] then path
  else if segment = ['.', '.'] then path.dropLast
  else path ++ [segment]

/-- `path.Clean` of the segments of a rooted path. -/
def clean (segments : List Text) : List Text := segments.foldl push []

def render (path : List Text) : Text :=
  if path = [] then ['/'] else path.flatMap fun segment => '/' :: segment

/-- `path.Join`. -/
def join (elems : List Text) : Text := render (clean (elems.flatMap fun elem => elem.splitOn '/'))

/-- A segment that stands in a path as it is. -/
structure Ordinary (segment : Text) : Prop where
  ne_nil : segment ≠ []
  ne_dot : segment ≠ ['.']
  ne_dots : segment ≠ ['.', '.']

instance : DecidablePred Ordinary := fun segment =>
  decidable_of_iff (segment ≠ [] ∧ segment ≠ ['.'] ∧ segment ≠ ['.', '.'])
    ⟨fun ⟨hnil, hdot, hdots⟩ => ⟨hnil, hdot, hdots⟩, fun h => ⟨h.ne_nil, h.ne_dot, h.ne_dots⟩⟩

theorem push_of_ordinary {segment : Text} (h : Ordinary segment) (path : List Text) :
    push path segment = path ++ [segment] := by
  unfold push
  rw [if_neg (not_or.mpr ⟨h.ne_nil, h.ne_dot⟩), if_neg h.ne_dots]

theorem render_singleton (segment : Text) : render [segment] = '/' :: segment := by
  simp [render]

theorem render_append {path : List Text} (h : path ≠ []) (segment : Text) :
    render (path ++ [segment]) = render path ++ '/' :: segment := by
  simp [render, h]

theorem splitOn_of_not_mem {text : Text} (h : '/' ∉ text) : text.splitOn '/' = [text] := by
  refine List.splitOnP_eq_singleton fun c hc => ?_
  simpa using fun heq : c = '/' => h (heq ▸ hc)

end Path
