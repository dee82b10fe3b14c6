import Lwcan.IsotpOut
import Lwcan.System
import Lwcan.Uds.Steps

/-!
# A request that ISO-TP refuses

`uds_send_request` assigns `with_response` and `state` and hands the request to `isotp_send`, whose
answer it returns. Here the answer is that of the node that `IsotpOut` models: `isotp_send` refuses
a flow that is still sending, and a message for which `lwcan_buffer_new` finds no memory.
`atomic_iff` says when a failed request leaves the client as it was.
-/

namespace Lwcan
namespace Uds
namespace Client

variable {cfg : Config} {n : Node} {g : Grant} {s : Client}

/-! ### The request and the ISO-TP that sends it -/

/-- `uds_send_request(request, size, with_response)` over the node `n`, whose allocator answers with
`g` -/
def requestOver (cfg : Config) (n : Node) (g : Grant) (s : Client) (request : Option (List UInt8))
    (withResponse : UInt8) : Lwcanerr × Client :=
  s.udsSendRequest request withResponse (n.isotpSend cfg s.uds.isotpPcb request g).1

/-- The request is refused before anything is assigned. -/
def RefusedEarly (s : Client) (request : Option (List UInt8)) : Prop :=
  request = none ∨ request = some [] ∨ s.uds.isConnected = false ∨ s.uds.state ≠ .idle

instance (s : Client) (request : Option (List UInt8)) : Decidable (s.RefusedEarly request) :=
  inferInstanceAs (Decidable (_ ∨ _ ∨ _ ∨ _))

/-- The client has a pcb whose output flow is idle, and the allocator has room for the message. -/
def Takes (n : Node) (g : Grant) (s : Client) : Prop :=
  ∃ p ∈ s.uds.isotpPcb, (n.flow (p, .output)).state = .idle ∧ g.granted = true

/-- **A failed request changes nothing**: `uds_state` is as before, and a later request gets the
answer it would have got. -/
def Atomic (s : Client) (r : Lwcanerr × Client) : Prop :=
  r.1 ≠ .ok → r.2.uds = s.uds ∧ ∀ later withResponse ret,
    (r.2.udsSendRequest later withResponse ret).1 = (s.udsSendRequest later withResponse ret).1

/-- The answer of the pcb that the client has is the client's. -/
theorem isotpAnswer_isotpSend {data : List UInt8} :
    s.isotpAnswer (n.isotpSend cfg s.uds.isotpPcb (some data) g).1 =
      (n.isotpSend cfg s.uds.isotpPcb (some data) g).1 := by
  unfold isotpAnswer
  cases s.uds.isotpPcb with
  | none => rfl
  | some p => rfl

/-! ### When a failed request changes nothing -/

theorem requestOver_of_refused {request : Option (List UInt8)} {withResponse : UInt8}
    (h : s.RefusedEarly request) : (s.requestOver cfg n g request withResponse).2 = s := by
  obtain ⟨-, hr⟩ | ⟨data, rfl, hd, hc, hi, -⟩ := s.udsSendRequest_cases request withResponse
    (n.isotpSend cfg s.uds.isotpPcb request g).1
  · exact hr
  · obtain h | h | h | h := h
    · cases h
    · exact absurd (Option.some.inj h) hd
    · rw [hc] at h
      cases h
    · exact absurd hi h

/-- A request that is not refused early leaves the client in `UDS_SENDING_REQUEST`, whatever
`isotp_send` answers. -/
theorem requestOver_of_not_refused {request : Option (List UInt8)} {withResponse : UInt8}
    (h : ¬s.RefusedEarly request) :
    ((s.requestOver cfg n g request withResponse).1 = .ok ↔ s.Takes n g) ∧
      (s.requestOver cfg n g request withResponse).2.uds =
        { s.uds with withResponse, state := .sendingRequest } := by
  simp only [RefusedEarly, not_or, Bool.not_eq_false, not_not] at h
  obtain ⟨hnone, hempty, hconn, hidle⟩ := h
  match request with
  | none => exact absurd rfl hnone
  | some [] => exact absurd rfl hempty
  | some (b :: data) =>
    have hr : s.requestOver cfg n g (some (b :: data)) withResponse =
        (s.isotpAnswer (n.isotpSend cfg s.uds.isotpPcb (some (b :: data)) g).1,
          { s with uds := { s.uds with withResponse, state := .sendingRequest } }.emit
            (.request (b :: data)
              (s.isotpAnswer (n.isotpSend cfg s.uds.isotpPcb (some (b :: data)) g).1))) := by
      simp [requestOver, udsSendRequest, hconn, hidle]
    rw [hr, isotpAnswer_isotpSend]
    exact ⟨Node.isotpSend_eq_ok_iff (by simp), rfl⟩

/-- A request that ISO-TP refuses is not atomic: the state was idle, and is not any more. -/
theorem not_atomic {request : Option (List UInt8)} {withResponse : UInt8}
    (hearly : ¬s.RefusedEarly request) (htakes : ¬s.Takes n g) :
    ¬s.Atomic (s.requestOver cfg n g request withResponse) := by
  intro hatomic
  obtain ⟨hok, huds⟩ := @requestOver_of_not_refused cfg n g s request withResponse hearly
  have hsame := (hatomic fun h => htakes (hok.mp h)).1
  have hidle : s.uds.state = .idle := by
    by_contra hi
    exact hearly (Or.inr (Or.inr (Or.inr hi)))
  have hstate : s.uds.state = .sendingRequest := by
    rw [← hsame, huds]
  rw [hidle] at hstate
  cases hstate

/-- **A failed request changes nothing** if and only if it is refused before `isotp_send` is called,
or `isotp_send` accepts it. -/
theorem atomic_iff (cfg : Config) (n : Node) (g : Grant) (s : Client)
    (request : Option (List UInt8)) (withResponse : UInt8) :
    s.Atomic (s.requestOver cfg n g request withResponse) ↔
      s.RefusedEarly request ∨ s.Takes n g := by
  constructor
  · intro hatomic
    by_contra hno
    obtain ⟨hearly, htakes⟩ := not_or.mp hno
    exact not_atomic hearly htakes hatomic
  · intro h hfail
    by_cases hearly : s.RefusedEarly request
    · rw [requestOver_of_refused hearly]
      exact ⟨rfl, fun _ _ _ => rfl⟩
    · obtain ⟨hok, -⟩ := requestOver_of_not_refused hearly
      exact absurd (hok.mpr (h.resolve_left hearly)) hfail

/-- The heap is full: `isotp_send` fails with `ERROR_MEMORY`, and the client stays in
`UDS_SENDING_REQUEST`. -/
theorem failed_request_sticks :
    ¬∀ (cfg : UdsConfig) (es : List Event) (s : Client) (ns : List Lwcan.Event) (n : Node)
      (g : Grant) (request : Option (List UInt8)) (withResponse : UInt8), Run cfg es s →
      Node.Run cfg.lwcan ns n → s.Atomic (s.requestOver cfg.lwcan n g request withResponse) := by
  intro h
  obtain ⟨s, hs, hearly⟩ := Runs.exists_run (step .default) (powerUp .default)
    [.call (.udsClientInit (some 0)), .call (.udsClientConnect (some 1) .null .ok .ok), .sent 0,
      .receive 0 5 ⟨0, 2, fun i => if i = 0 then 0x7E else 0⟩, .ret]
    (fun s => ¬s.RefusedEarly (some [0x10, 1])) (by decide)
  obtain ⟨n, hn, -⟩ := Node.exists_run Config.classic Node.connected (fun _ => True) (by decide)
  have htakes : ¬s.Takes n ⟨some 1, none, fun _ => 0⟩ := by
    rintro ⟨p, -, -, hg⟩
    cases hg
  exact not_atomic hearly htakes (h .default _ s _ n _ (some [0x10, 1]) 1 hs hn)

end Client
end Uds
end Lwcan
