import EagerLambda.Text.Cluster
import EagerLambda.Text.Position

/-!
# Backspaces

A backspace in a line takes back the cluster typed before it, if there is one.
How many bytes there are to take back is kept in one byte for each cluster: of a
cluster of 256 bytes or more, only the last bytes beyond a multiple of 256 are
taken back, and if these start inside a character then nothing sensible is left.

`eraseBackspaces_of_not_mem` says that a line without backspaces stays as it is.
-/

namespace EagerLambda

/-- The character that takes back the cluster before it. -/
def backspace : Char := '\x08'

structure Typed where
  /-- The characters, the latest first. -/
  text : List Char := []
  /-- The bytes to take back for each cluster, the latest first. -/
  widths : List Nat := []

def Typed.press (t : Typed) (cluster : List Char) : Except InsideCharacter Typed :=
  if cluster = [backspace] then
    match t.widths with
    | [] => .ok t
    | width :: widths => (seek t.text width).map fun text => ⟨text, widths⟩
  else .ok ⟨cluster.reverse ++ t.text, byteLength cluster % 256 :: t.widths⟩

/-- The line that is left when every backspace has done its work. -/
def eraseBackspaces (line : String) : Except InsideCharacter String :=
  ((clusters line.toList).foldlM Typed.press {}).map fun t => String.ofList t.text.reverse

/-- Without backspaces, what is typed is what was typed before and the new clusters. -/
theorem foldlM_press {cs : List (List Char)} (h : [backspace] ∉ cs) (t : Typed) :
    ∃ widths, cs.foldlM Typed.press t =
      .ok ⟨cs.flatten.reverse ++ t.text, widths⟩ := by
  induction cs generalizing t with
  | nil => exact ⟨t.widths, rfl⟩
  | cons c cs ih =>
    have hc : c ≠ [backspace] := fun e => h (by simp [e])
    obtain ⟨widths, e⟩ := ih (fun m => h (List.mem_cons_of_mem c m))
      ⟨c.reverse ++ t.text, byteLength c % 256 :: t.widths⟩
    refine ⟨widths, ?_⟩
    rw [List.foldlM_cons, Typed.press, if_neg hc]
    exact e.trans (by simp)

/-- A line without backspaces is left as it is. -/
theorem eraseBackspaces_of_not_mem {line : String} (h : backspace ∉ line.toList) :
    eraseBackspaces line = .ok line := by
  have hc : [backspace] ∉ clusters line.toList := fun m =>
    h (flatten_clusters line.toList ▸ List.mem_flatten.mpr ⟨_, m, by simp⟩)
  obtain ⟨widths, e⟩ := foldlM_press hc {}
  rw [eraseBackspaces, e, flatten_clusters]
  simp [Except.map]

end EagerLambda
