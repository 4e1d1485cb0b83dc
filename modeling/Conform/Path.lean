set_option autoImplicit false

/-!
# Failure keys

A failure is filed under the name of the check that failed, qualified by where in the value it
failed: `[2].min_length` is the check `min_length` of the item at position 2, `@0.type` the check
`type` of the first alternative of a union.

## Main definitions

* `Conform.Path.position`, `Conform.Path.alternative`: the two kinds of segment.
* `Conform.Path.qualify`: a segment put before a key.
-/

namespace Conform.Path

/-- The segment of an item of a list or a tuple. -/
def position (index : Nat) : String := "[" ++ toString index ++ "]"

/-- The segment of an alternative of a union. -/
def alternative (index : Nat) : String := "@" ++ toString index

/-- Puts a segment before a key.  A key that opens with a position follows the segment directly,
any other one after a point; an empty text on either side leaves the other. -/
def qualify (segment key : String) : String :=
  if segment = "" then key
  else match key.toList with
    | [] => segment
    | '[' :: _ => segment ++ key
    | _ => segment ++ "." ++ key

@[simp] theorem qualify_empty_left (key : String) : qualify "" key = key := by simp [qualify]

@[simp] theorem qualify_empty_right (segment : String) : qualify segment "" = segment := by
  by_cases h : segment = "" <;> simp [qualify, h]

end Conform.Path
