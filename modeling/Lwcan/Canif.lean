import Lwcan.Types

/-!
# CAN interfaces (`src/canif.c`)

The list of registered interfaces. A `struct canif` belongs to the caller; the library links it by
its `next` field. The model keeps the chain from `canif_list` on as a list of addresses and the
other fields in a memory indexed by address. `canif_add` clears the whole structure before it looks
at the list, so adding an interface that is already registered cuts the chain behind it
(`unlinkNext`).
-/

namespace Lwcan

/-- `MAX_CANIF_NUM` -/
def maxCanifNum : Nat := 254

/-- A function pointer of an interface: null, `canif_input`, or a function of a driver, known by its
address. -/
inductive CanifFunction
  | null
  | canifInput
  | driver (address : Nat)
  deriving DecidableEq, Repr

/-- `struct canif` without its `next` field. -/
structure Canif where
  num : Nat := 0
  driverData : Nat := 0
  name : List UInt8 := [0, 0, 0, 0]
  input : CanifFunction := .null
  output : CanifFunction := .null
  setBitrate : CanifFunction := .null
  setFilter : CanifFunction := .null

/-- The state of `canif.c`: the chain from `canif_list` on, `canif_num`, and the interfaces. -/
structure Canifs where
  canifList : List Nat := []
  canifNum : Nat := 0
  mem : Nat → Canif := fun _ => {}

namespace Canifs

/-- `canif->next = NULL`: what is linked behind `canif` drops out of the chain. -/
def unlinkNext (canif : Nat) : List Nat → List Nat
  | [] => []
  | c :: cs => if c = canif then [c] else c :: unlinkNext canif cs

/-- How the `for` loop of `canif_add` ends. -/
inductive Scan
  | registered
  | full
  | collision
  | clear
  deriving DecidableEq

/-- The `for` loop of `canif_add`: look for `canif` itself and for its number among the registered
interfaces, counting them. -/
def scan (mem : Nat → Canif) (canif num : Nat) : Nat → List Nat → Scan
  | _, [] => .clear
  -- the order of the three tests is the source's
  | numCanifs, c :: cs =>
    if c = canif then .registered
    else if maxCanifNum ≤ u8 (numCanifs + 1) then .full
    else if (mem c).num = num then .collision
    else scan mem canif num (u8 (numCanifs + 1)) cs

/-- The `do` loop of `canif_add`: the error it returns, if any, and the number it leaves in
`canif->num`. The first argument bounds the number of turns. -/
def number (mem : Nat → Canif) (canif : Nat) (chain : List Nat) : Nat → Nat →
    Option (Lwcanerr × Nat)
  | 0, _ => none
  | fuel + 1, num =>
    let num := if num = maxCanifNum then 0 else num
    match scan mem canif num 0 chain with
    | .registered => some (.canif, num)
    | .full => some (.canifMax, num)
    | .collision => number mem canif chain fuel (u8 (num + 1))
    | .clear => some (.ok, num)

/-- `canif_add(canif, name, init)`. The driver's `init` is a function of the structure it is handed.
The result is `none` only if the numbering loop takes more than 256 turns. -/
def canifAdd (r : Canifs) (canif : Option Nat) (name : Option (List UInt8))
    (init : Option (Canif → Lwcanerr × Canif)) : Option (Lwcanerr × Canifs) :=
  match canif, name, init with
  | some c, some name, some init =>
    if name.length = 0 ∨ 4 < name.length then some (.arg, r)
    else
      let cleared : Canif :=
        -- `memset`, `memcpy` of the name, and the number that is due
        { num := r.canifNum, name := (name ++ [0, 0, 0, 0]).take 4, input := .canifInput }
      -- `memset` has cleared `next`
      let chain := unlinkNext c r.canifList
      let (err, inited) := init cleared
      let r := { r with canifList := chain, mem := Function.update r.mem c inited }
      -- the interface is left as the driver made it
      if err ≠ .ok then some (.lowLevelIf, r)
      else
        match number r.mem c chain 256 inited.num with
        | none => none
        | some (.ok, num) =>
          some (.ok,
            { canifList := c :: chain
              -- numbers run from 0 to 253
              canifNum := if num = maxCanifNum - 1 then 0 else u8 (num + 1)
              mem := Function.update r.mem c { inited with num } })
        | some (err, num) =>
          some (err, { r with mem := Function.update r.mem c { inited with num } })
  | _, _, _ => some (.arg, r)

/-- `canif_remove(canif)` -/
def canifRemove (r : Canifs) (canif : Option Nat) : Lwcanerr × Canifs :=
  match canif with
  | none => (.arg, r)
  | some c => (.ok, { r with canifList := r.canifList.erase c })

/-- `canif_get_index(canif)` -/
def canifGetIndex (r : Canifs) (canif : Option Nat) : Nat :=
  match canif with
  | none => 0
  | some c => u8 ((r.mem c).num + 1)

/-- `canif_get_by_name(name)`, where `name` is the memory from the pointer on. `memcmp` compares the
four bytes of the field, whatever the string's length. -/
def canifGetByName (r : Canifs) (name : Option (Nat → UInt8)) : Option Nat :=
  match name with
  | none => none
  | some s => r.canifList.find? fun c => (r.mem c).name = [s 0, s 1, s 2, s 3]

/-- `canif_name_to_index(name)` -/
def canifNameToIndex (r : Canifs) (name : Option (Nat → UInt8)) : Nat :=
  r.canifGetIndex (r.canifGetByName name)

/-- `canif_get_by_index(index)` -/
def canifGetByIndex (r : Canifs) (index : Nat) : Option Nat :=
  if index = 0 then none else r.canifList.find? fun c => index = r.canifGetIndex (some c)

end Canifs
end Lwcan
