/-!
# Base64

`decode?` reads the strict form: only the sixty-four letters and the padding sign, no letter after
the padding has started, nothing after the padding is complete, and no group left open. A padding
sign where no padding is due is passed over, unless the text starts with it. `decodeLoosely?` passes
over everything that is no letter and stops where a padding is complete; only a group that is left
open is refused.
-/

namespace Docwright.Text.Base64

/-- The six bits a letter stands for. -/
def value? (c : Char) : Option Nat :=
  if 'A' ≤ c ∧ c ≤ 'Z' then some (c.toNat - 'A'.toNat)
  else if 'a' ≤ c ∧ c ≤ 'z' then some (c.toNat - 'a'.toNat + 26)
  else if '0' ≤ c ∧ c ≤ '9' then some (c.toNat - '0'.toNat + 52)
  else if c == '+' then some 62
  else if c == '/' then some 63
  else none

/-- What has been read of a text. -/
structure Reader where
  /-- The values of the letters of the open group, in order; at most three. -/
  group : List Nat
  /-- The bytes of the finished groups, latest first. -/
  bytes : List UInt8
  /-- Whether a padding sign has been seen. -/
  padded : Bool
  /-- How many padding signs stand after the open group. -/
  pads : Nat
  /-- Whether the padding is complete. -/
  closed : Bool

/-- The whole bytes that the letters of a group make up, latest first. -/
def groupBytes : List Nat → List UInt8
  | [a, b] => [(a * 4 + b / 16).toUInt8]
  | [a, b, c] => [(b % 16 * 16 + c / 4).toUInt8, (a * 4 + b / 16).toUInt8]
  | [a, b, c, d] =>
    [(c % 4 * 64 + d).toUInt8, (b % 16 * 16 + c / 4).toUInt8, (a * 4 + b / 16).toUInt8]
  | _ => []

/-- Takes one letter. -/
def Reader.letter (r : Reader) (v : Nat) : Reader :=
  let group := r.group ++ [v]
  if group.length == 4 then { r with group := [], bytes := groupBytes group ++ r.bytes }
  else { r with group }

/-- Takes one character; `none` where it may not stand. -/
def Reader.step (r : Reader) (c : Char) : Option Reader :=
  if r.closed then none
  else if c == '=' then
    if r.group.length < 2 then some { r with padded := true }
    else if r.group.length + r.pads + 1 ≥ 4 then
      some { r with padded := true, pads := r.pads + 1, closed := true }
    else some { r with padded := true, pads := r.pads + 1 }
  else
    match value? c with
    | none => none
    | some v =>
      if r.padded then none else some (r.letter v)

/-- Takes one character in the loose form, in which a letter behind a padding sign undoes it. -/
def Reader.stepLoosely (r : Reader) (c : Char) : Reader :=
  if r.closed then r
  else if c == '=' then
    if r.group.length < 2 then r
    else { r with pads := r.pads + 1, closed := r.group.length + r.pads + 1 ≥ 4 }
  else
    match value? c with
    | none => r
    | some v => { r with pads := 0 }.letter v

/-- The bytes that have been read, `none` when a group is left open. -/
def Reader.bytes? (r : Reader) : Option (List UInt8) :=
  if r.closed || r.group.isEmpty then some (groupBytes r.group ++ r.bytes).reverse else none

/-- The bytes a text stands for in the loose form, `none` when a group is left open. -/
def decodeLoosely? (cs : List Char) : Option (List UInt8) :=
  (cs.foldl Reader.stepLoosely ⟨[], [], false, 0, false⟩).bytes?

/-- The bytes a text stands for, `none` when it is not in the strict form. -/
def decode? (cs : List Char) : Option (List UInt8) :=
  if cs.head? == some '=' then none
  else
    match cs.foldlM Reader.step ⟨[], [], false, 0, false⟩ with
    | none => none
    | some r => r.bytes?

end Docwright.Text.Base64
