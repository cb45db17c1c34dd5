import Blocxx.DateTime.Parse
import Mathlib.Data.List.TakeWhile

/-!
This file embeds operations of `String` on the characters of a string, which are single bytes.
-/

namespace Blocxx.CharString

open Time

/-- `String::concat`. The block that it allocates has these bytes before it is written. -/
def concat (unwritten : Nat → Char) (str arg : Text) : Text :=
  if cString arg = [] then str
  else
    let len := str.length + (cString arg).length
    (cString str ++ cString arg ++ '\x00' :: (List.range len).map unwritten).take len

theorem concat_length (unwritten : Nat → Char) (str arg : Text) :
    (concat unwritten str arg).length = str.length + (cString arg).length := by
  unfold concat
  split
  next none => rw [none, List.length_nil, Nat.add_zero]
  · dsimp only
    rw [List.length_take, List.length_append, List.length_cons, List.length_map, List.length_range]
    omega

theorem cString_length_le (str : Text) : (cString str).length ≤ str.length :=
  (List.takeWhile_sublist _).length_le

theorem zero_notMem_cString (text : Text) : '\x00' ∉ cString text := by
  intro mem
  have kept := List.mem_takeWhile_imp mem
  exact absurd rfl (of_decide_eq_true kept)

theorem cString_eq_iff (text : Text) : cString text = text ↔ '\x00' ∉ text := by
  constructor
  · intro same
    rw [← same]
    exact zero_notMem_cString text
  · intro free
    refine List.takeWhile_eq_self_iff.mpr fun c mem => decide_eq_true ?_
    rintro rfl
    exact free mem

end Blocxx.CharString
