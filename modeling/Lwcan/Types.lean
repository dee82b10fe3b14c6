import Mathlib.Logic.Function.Basic
import Lwcan.Lib.Memory

/-!
# Types and options

What every module of the library shares: the error codes (`include/lwcan/error.h`), the CAN frame
(`include/lwcan/can.h`), pointers passed as `void *`, the build options (`include/lwcan/options.h`)
and C's narrow integer types.

C evaluates `uint8_t` and `uint32_t` operands as `int` or wider and narrows on assignment. The model
computes in `Int` and narrows with `u8`, `u32` and `i8` exactly where the source assigns to, casts
to or passes a narrow type.
-/

namespace Lwcan

/-! ### Narrow integers -/

/-- The value of `z` converted to `uint8_t`. -/
def u8 (z : Int) : Nat := (z % 256).toNat

/-- The value of `z` converted to `uint32_t`. -/
def u32 (z : Int) : Nat := (z % 4294967296).toNat

/-- The value of `z` converted to `int8_t`. -/
def i8 (z : Int) : Int := (z + 128) % 256 - 128

theorem u8_lt (z : Int) : u8 z < 256 := by
  unfold u8
  omega

/-- A number in range converts to itself. -/
theorem u8_natCast {n : Nat} (h : n < 256) : u8 n = n := by
  unfold u8
  omega

/-- A difference that does not underflow converts to itself. -/
theorem u8_sub {a b : Nat} (h : b ≤ a) (ha : a < 256) : u8 ((a : Int) - b) = a - b := by
  unfold u8
  omega

theorem u32_sub {a b : Nat} (h : b ≤ a) (ha : a < 4294967296) : u32 ((a : Int) - b) = a - b := by
  unfold u32
  omega

/-- Narrowing an operand first makes no difference to a difference. -/
theorem u32_sub_u32 (a b : Int) : u32 (a - u32 b) = u32 (a - b) := by
  unfold u32
  omega

@[simp] theorem u32_self_sub (a : Int) : u32 (a - a) = 0 := by
  simp [u32]

/-! ### Error codes and pointers -/

/-- `lwcanerr_t`: the codes of `error.h`, and any other value a driver may return. -/
inductive Lwcanerr
  | ok
  | arg
  | canif
  | canifMax
  | lowLevelIf
  | memory
  | transmitTimeout
  | receiveTimeout
  | inprogress
  | aborted
  | connect
  | driver (code : Int)
  deriving DecidableEq, Repr

/-- A `void *`: null, the address of an ISO-TP pcb, or an address that belongs to the user. -/
inductive Ptr
  | null
  | pcb (p : Nat)
  | user (a : Nat)
  deriving DecidableEq, Repr

/-! ### Frames -/

/-- `CAN_MAX_DLEN` -/
def canMaxDlen : Nat := 8

/-- `CANFD_MAX_DLEN` -/
def canfdMaxDlen : Nat := 64

/-- `CANFD_BRS` -/
def canfdBrsFlag : Nat := 1

/-- `struct can_frame` and `struct canfd_frame`: identifier, payload length, FD flags, and the
memory from `data[0]` on. The array has 8 or 64 cells; what lies behind it is whatever memory
follows. -/
structure CanFrame where
  canId : Nat
  len : Nat
  flags : Nat
  data : Nat → UInt8

namespace CanFrame

/-- `frame->data[i] = b` -/
def set (f : CanFrame) (i : Nat) (b : UInt8) : CanFrame :=
  { f with data := Function.update f.data i b }

/-- `frame->data[i] |= b` -/
def orAt (f : CanFrame) (i : Nat) (b : UInt8) : CanFrame :=
  f.set i (f.data i ||| b)

/-- The bytes on the wire: the first `len` data bytes. -/
def wire (f : CanFrame) : List UInt8 := Mem.slice f.data 0 f.len

@[simp] theorem set_len (f : CanFrame) (i : Nat) (b : UInt8) : (f.set i b).len = f.len := rfl

@[simp] theorem set_canId (f : CanFrame) (i : Nat) (b : UInt8) : (f.set i b).canId = f.canId := rfl

@[simp] theorem set_data (f : CanFrame) (i : Nat) (b : UInt8) :
    (f.set i b).data = Function.update f.data i b := rfl

@[simp] theorem orAt_len (f : CanFrame) (i : Nat) (b : UInt8) : (f.orAt i b).len = f.len := rfl

@[simp] theorem orAt_canId (f : CanFrame) (i : Nat) (b : UInt8) :
    (f.orAt i b).canId = f.canId := rfl

@[simp] theorem orAt_data (f : CanFrame) (i : Nat) (b : UInt8) :
    (f.orAt i b).data = Function.update f.data i (f.data i ||| b) := rfl

end CanFrame

/-! ### Build options -/

/-- The build options of `options.h` the modelled code reads, and the sizes of the two pooled
structures, which depend on the target.

The pools keep a chunk's offset in a `uint8_t`, and the last two fields say that every offset fits.
The source accepts other builds, too, the default options on a 64-bit target among them (10 timeouts
of 32 bytes): there a chunk that is freed clears the mark of another one (`Lwcan.PoolRuns`), and
nothing is said of what builds on the pools. -/
structure Config where
  /-- `ISOTP_CANFD` -/
  canfd : Bool := false
  /-- `ISOTP_CANFD_BRS` -/
  canfdBrs : Bool := true
  /-- `ISOTP_PADDING_BYTE` -/
  paddingByte : UInt8 := 0xAA
  /-- `ISOTP_RECEIVE_BS` -/
  receiveBs : Nat := 0
  /-- `ISOTP_RECEIVE_ST` -/
  receiveSt : Nat := 0
  /-- `ISOTP_N_WFT` -/
  nWft : Nat := 0
  /-- `ISOTP_N_AS` -/
  nAs : Nat := 1000
  /-- `ISOTP_N_BS` -/
  nBs : Nat := 1000
  /-- `ISOTP_N_CS` -/
  nCs : Nat := 5
  /-- `ISOTP_N_BR` -/
  nBr : Nat := 5
  /-- `ISOTP_N_CR` -/
  nCr : Nat := 1000
  /-- `ISOTP_MAX_PCB_NUM` -/
  isotpMaxPcbNum : Nat := 2
  /-- `LWCAN_TIMEOUTS_NUM` -/
  timeoutsNum : Nat := 10
  /-- `sizeof(struct isotp_pcb)` -/
  isotpPcbSize : Nat := 84
  /-- `sizeof(struct lwcan_timeout)` -/
  timeoutSize : Nat := 16
  isotpPcbSize_pos : 0 < isotpPcbSize := by decide
  timeoutSize_pos : 0 < timeoutSize := by decide
  isotpPool_fits : isotpPcbSize * (isotpMaxPcbNum - 1) < 256 := by decide
  timeoutPool_fits : timeoutSize * (timeoutsNum - 1) < 256 := by decide

/-- A classic build with the default options -/
def Config.classic : Config := {}

end Lwcan
