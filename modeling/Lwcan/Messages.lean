import Lwcan.FlowSteps
import Lwcan.Lib.Monitor

/-!
# Messages, as the log tells them

What has become of the messages an input flow was sent can be read off its log: a frame opens a
message, consecutive frames add to it, and it ends by being handed over, dropped on an error path,
or released. Nothing here looks at the flow itself, so that the properties say what the flow does
without saying how.

* `current` — the message that was opened last, if it has not ended.
* `held` — the buffers handed to the application and not released since.
-/

namespace Lwcan

/-- A message, by the frames it was made of. -/
structure Message where
  buffer : Nat
  /-- The single frame or first frame that opened it -/
  opened : List UInt8
  /-- The consecutive frames processed since -/
  consecutive : List (List UInt8)

namespace Message

/-- The current message after an entry of the log -/
def step (cur : Option Message) : Obs → Option Message
  | .opened _ b w => some ⟨b, w, []⟩
  | .consecutive _ w => cur.map fun m => { m with consecutive := m.consecutive ++ [w] }
  | .receive _ _ _ _ | .dropped _ _ => none
  | .released _ b => cur.filter (·.buffer ≠ b)
  | _ => cur

end Message

/-- The message that was opened last, if it has not ended. -/
def current (log : List Obs) : Option Message := log.foldl Message.step none

/-- The buffers the application holds, after an entry of the log -/
def heldStep (l : List Nat) : Obs → List Nat
  | .receive _ _ b _ => b :: l
  | .released _ b => l.filter (· ≠ b)
  | _ => l

/-- The buffers handed to the application and not released since. -/
def held (log : List Obs) : List Nat := log.foldl heldStep []

theorem current_append (l m : List Obs) : current (l ++ m) = m.foldl Message.step (current l) :=
  List.foldl_append

theorem held_append (l m : List Obs) : held (l ++ m) = m.foldl heldStep (held l) :=
  List.foldl_append

/-- The entry neither opens nor ends a message. -/
def Obs.neutral : Obs → Bool
  | .opened _ _ _ | .receive _ _ _ _ | .dropped _ _ | .released _ _ => false
  | _ => true

section Neutral

variable {l m : List Obs} (h : ∀ o ∈ m, o.neutral)

include h

theorem held_append_neutral : held (l ++ m) = held l := by
  rw [held_append]
  induction m with
  | nil => rfl
  | cons o m ih =>
    have ho := h o List.mem_cons_self
    have ih := ih fun o' ho' => h o' (List.mem_cons_of_mem _ ho')
    cases o with
    | receive | released => cases ho
    | _ => exact ih

theorem foldl_neutral (cur : Option Message) :
    (m.foldl Message.step cur).map Message.buffer = cur.map Message.buffer := by
  induction m generalizing cur with
  | nil => rfl
  | cons o m ih =>
    have ho := h o List.mem_cons_self
    have ih := ih fun o' ho' => h o' (List.mem_cons_of_mem _ ho')
    rw [List.foldl_cons, ih]
    cases o with
    | opened | receive | dropped | released => cases ho
    | consecutive => cases cur <;> rfl
    | _ => rfl

end Neutral

/-! ### A message and its frames -/

/-- The entry leaves the current message as it is. -/
def Obs.silent : Obs → Bool
  | .consecutive _ _ => false
  | o => o.neutral

theorem Obs.neutral_of_silent {o : Obs} (h : o.silent) : o.neutral := by
  cases o <;> first | rfl | exact h

theorem foldl_silent {m : List Obs} (h : ∀ o ∈ m, o.silent) (cur : Option Message) :
    m.foldl Message.step cur = cur := by
  refine Monitor.foldl_of_keeps (fun o ho cur => ?_) cur
  have ho := h o ho
  cases o with
  | opened | receive | dropped | released | consecutive => cases ho
  | _ => rfl

/-- The entry opens a message. -/
def Obs.opens : Obs → Bool
  | .opened _ _ _ => true
  | _ => false

/-- Without an opening there is no message. -/
theorem foldl_none {l : List Obs} (h : ∀ o ∈ l, o.opens = false) :
    l.foldl Message.step none = none := by
  induction l with
  | nil => rfl
  | cons o l ih =>
    have ho := h o List.mem_cons_self
    have ih := ih fun o' ho' => h o' (List.mem_cons_of_mem _ ho')
    cases o with
    | opened => cases ho
    | _ => exact ih

/-- **Until the next opening** a message is the same one, and gains frames only. -/
theorem foldl_extends {l : List Obs} (h : ∀ o ∈ l, o.opens = false) {m m' : Message}
    (hm : l.foldl Message.step (some m) = some m') :
    m'.buffer = m.buffer ∧ m'.opened = m.opened ∧ m.consecutive <+: m'.consecutive := by
  induction l generalizing m with
  | nil =>
    cases hm
    exact ⟨rfl, rfl, List.prefix_rfl⟩
  | cons o l ih =>
    have ho := h o List.mem_cons_self
    have hl := fun o' ho' => h o' (List.mem_cons_of_mem _ ho')
    rw [List.foldl_cons] at hm
    -- only a consecutive frame adds to the message; what closes it leaves none to come back to
    cases o with
    | opened => cases ho
    | receive | dropped =>
      rw [show Message.step (some m) _ = none from rfl, foldl_none hl] at hm
      cases hm
    | released q b =>
      rw [show Message.step (some m) _ = (some m).filter (·.buffer ≠ b) from rfl,
        Option.filter_some] at hm
      split at hm
      · exact ih hl hm
      · rw [foldl_none hl] at hm
        cases hm
    | consecutive q w =>
      obtain ⟨h₁, h₂, h₃⟩ := ih hl hm
      exact ⟨h₁, h₂, (List.prefix_append _ _).trans h₃⟩
    | _ => exact ih hl hm

/-- A frame on the wire, read as `frame->data` -/
def wireData (w : List UInt8) : Nat → UInt8 := fun i => w.getD i 0

theorem wireData_wire {f : CanFrame} {i : Nat} (h : i < f.len) : wireData f.wire i = f.data i := by
  rw [wireData, List.getD_eq_getElem?_getD, CanFrame.wire, Mem.getElem?_slice, if_pos h]
  simp

/-- The wire bytes are those of a first frame. -/
def isFf (w : List UInt8) : Bool := wireData w 0 &&& frameTypeMask = ffType

/-- The sequence number of a consecutive frame -/
def wireSn (w : List UInt8) : Nat := (wireData w 0 &&& 0x0F).toNat

namespace Message

/-- What the frames of a segmented message carry, in the classic format -/
def payload (m : Message) : List UInt8 :=
  m.opened.drop ffDataOffset ++ m.consecutive.flatMap (List.drop cfDataOffset)

/-- The length a first frame announces -/
def announced (cfg : Config) (m : Message) : Nat := isotpGetFfDl cfg (wireData m.opened)

/-- **The whole message**: as many bytes as announced, the first that its frames carried, and these
came in sequence. -/
structure Whole (cfg : Config) (m : Message) (bytes : List UInt8) : Prop where
  length : bytes.length = m.announced cfg
  bytes : bytes = m.payload.take (m.announced cfg)
  sequence : ∀ i (h : i < m.consecutive.length), wireSn m.consecutive[i] = (i + 1) % 16

end Message

end Lwcan
