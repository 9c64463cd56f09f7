/-!
# Separators

A text is cut at every place where a separator stands, and the pieces are put together again.
-/
namespace CastReceiver.Text

/-- The pieces of a text between its separators, of which there is always one at least. -/
def split (sep : Char) : List Char → List (List Char)
  | [] => [[]]
  | c :: cs =>
    if c = sep then [] :: split sep cs
    else match split sep cs with
      | piece :: pieces => (c :: piece) :: pieces
      | [] => [[c]]

/-- The pieces with a separator between each two. -/
def join (sep : Char) : List (List Char) → List Char
  | [] => []
  | [piece] => piece
  | piece :: pieces => piece ++ sep :: join sep pieces

/-- The text before and after the first place where a separator stands twice in a row. -/
def splitTwice? (sep : Char) : List Char → Option (List Char × List Char)
  | c :: d :: cs =>
    if c = sep ∧ d = sep then some ([], cs)
    else (splitTwice? sep (d :: cs)).map fun (before, after) => (c :: before, after)
  | _ => none

theorem split_ne_nil (sep : Char) (cs : List Char) : split sep cs ≠ [] := by
  induction cs with
  | nil => simp [split]
  | cons c cs ih =>
    unfold split
    split
    · simp
    · split <;> simp

theorem split_of_not_mem {sep : Char} {cs : List Char} (h : sep ∉ cs) : split sep cs = [cs] := by
  induction cs with
  | nil => rfl
  | cons c cs ih =>
    have hc : c ≠ sep := fun e => h (e ▸ List.mem_cons_self)
    simp [split, hc, ih fun m => h (List.mem_cons_of_mem c m)]

theorem split_append_cons {sep : Char} {piece : List Char} (h : sep ∉ piece) (cs : List Char) :
    split sep (piece ++ sep :: cs) = piece :: split sep cs := by
  induction piece with
  | nil => simp [split]
  | cons c piece ih =>
    have hc : c ≠ sep := fun e => h (e ▸ List.mem_cons_self)
    simp [split, hc, ih fun m => h (List.mem_cons_of_mem c m)]

/-- Pieces in which no separator stands are found again. -/
theorem split_join {sep : Char} {pieces : List (List Char)} (hne : pieces ≠ [])
    (h : ∀ piece ∈ pieces, sep ∉ piece) : split sep (join sep pieces) = pieces := by
  induction pieces with
  | nil => exact absurd rfl hne
  | cons piece pieces ih =>
    have hp := h piece List.mem_cons_self
    cases pieces with
    | nil => exact split_of_not_mem hp
    | cons q qs =>
      rw [join, split_append_cons hp, ih (by simp) fun p hm => h p (List.mem_cons_of_mem _ hm)]
      simp

end CastReceiver.Text
