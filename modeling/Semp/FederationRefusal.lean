import Semp.ForwarderRun

/-! A peer that goes on after its policy was refused: the initiator takes its ACCEPTED, and
the session is established. -/
namespace Semp
namespace FederationRefusal

open FederationInitiator Forwarder Federation Handshake Method

/-- Refuses every policy. -/
def refusingForwarder : ForwarderConfig :=
  { sampleForwarder with policyAcceptor := some fun _ => .ok (some (js "no")) }

def refusingConfig : FederationInitiatorConfig :=
  initiatorConfig refusingForwarder (js "b") sampleKey

/-- The RESPONSE whose policy is refused, and the ACCEPTED of a peer that was not told so. -/
def sampleRefusal : Js (Bytes × Bytes) := do
  let c ← FederationInitiator.new Sample.crypto refusingConfig
  let init ← kept ((init Sample.crypto sampleEntropy).call c)
  let dialog ← sampleDialog
  let answer ← takeResponse Sample.crypto Sample.runtime init.2 dialog.1
  let policy ← getProp (some answer.message) (js "federation_policy")
  let reason ← consult init.2.cfg policy
  require (reason = some (js "no")) (js "not refused")
  let confirm ← kept ((onResponse Sample.crypto Sample.runtime dialog.1).call init.2)
  let accepted ← kept ((onAccepted Sample.crypto Sample.runtime dialog.2.1).call confirm.2)
  let _ ← kept (session.call accepted.2)
  .ok (dialog.1,dialog.2.1)

/-- The calls of the initiator, as the run makes them. -/
theorem sampleRefusal_ok : ∃ c response accepted,
    FederationInitiator.new Sample.crypto refusingConfig = .ok c ∧
      Refuses Sample.crypto Sample.runtime
        (run (perform Sample.crypto Sample.runtime) [.init sampleEntropy] c).2 response ∧
      Established (run (perform Sample.crypto Sample.runtime) [.onAccepted accepted]
        (run (perform Sample.crypto Sample.runtime) ([.init sampleEntropy]++[.onResponse response])
          c).2).2 := by
  have hok : sampleRefusal.toBool = true := by decide +kernel
  cases hs : sampleRefusal with
  | error err =>
    rw [hs] at hok
    cases hok
  | ok r =>
    obtain ⟨c,hnew,hs⟩ := Semp.bind_eq_ok.mp hs
    obtain ⟨⟨bytes,c₁⟩,hinit,hs⟩ := Semp.bind_eq_ok.mp hs
    obtain ⟨⟨response,accepted,s⟩,-,hs⟩ := Semp.bind_eq_ok.mp hs
    obtain ⟨answer,htake,hs⟩ := Semp.bind_eq_ok.mp hs
    obtain ⟨policy,hpolicy,hs⟩ := Semp.bind_eq_ok.mp hs
    obtain ⟨reason,hconsult,hs⟩ := Semp.bind_eq_ok.mp hs
    obtain ⟨_,hno,hs⟩ := Semp.bind_eq_ok.mp hs
    obtain ⟨⟨confirm,c₂⟩,hresponse,hs⟩ := Semp.bind_eq_ok.mp hs
    obtain ⟨⟨u,c₃⟩,haccepted,hs⟩ := Semp.bind_eq_ok.mp hs
    obtain ⟨⟨session,c₄⟩,hsession,-⟩ := Semp.bind_eq_ok.mp hs
    have hinit' : ((perform Sample.crypto Sample.runtime (.init sampleEntropy)).call c).2 = c₁ := by
      rw [perform,Method.call_map,kept_eq_ok.mp hinit]
    have hresponse' : ((perform Sample.crypto Sample.runtime (.onResponse response)).call c₁).2 =
        c₂ := by
      rw [perform,Method.call_map,kept_eq_ok.mp hresponse]
    have haccepted' : ((perform Sample.crypto Sample.runtime (.onAccepted accepted)).call c₂).2 =
        c₃ := by
      rw [perform,Method.call_map,kept_eq_ok.mp haccepted]
    refine ⟨c,response,accepted,hnew,?_,?_⟩
    · change Refuses _ _ ((perform _ _ _).call c).2 response
      rw [hinit']
      rw [require_eq_ok.mp hno] at hconsult
      exact ⟨answer,policy,_,htake,hpolicy,hconsult⟩
    · have hlast : (run (perform Sample.crypto Sample.runtime) [.onAccepted accepted]
          (run (perform Sample.crypto Sample.runtime)
            ([.init sampleEntropy]++[.onResponse response]) c).2).2 = c₃ := by
        change ((perform _ _ _).call ((perform _ _ _).call ((perform _ _ _).call c).2).2).2 = c₃
        rw [hinit',hresponse',haccepted']
      rw [hlast]
      have hcall := kept_eq_ok.mp hsession
      obtain ⟨hfinal,rfl⟩ := session_eq_ok.mp hcall
      exact ⟨session,hcall⟩

/-- The condition under which a refusal stands, at this run. -/
theorem refusal_final_sample : ∃ c response accepted,
    FederationInitiator.new Sample.crypto refusingConfig = .ok c ∧
    let refused := (run (perform Sample.crypto Sample.runtime)
      ([.init sampleEntropy]++[.onResponse response]) c).2
    ((∀ later, later <+: [.onAccepted accepted] →
        ¬Established (run (perform Sample.crypto Sample.runtime) later refused).2) ↔
      ¬Established (run (perform Sample.crypto Sample.runtime) [.init sampleEntropy] c).2 ∧
      ∀ later call, later++[call] <+: [.onAccepted accepted] →
        ¬Admits Sample.crypto Sample.runtime
          (run (perform Sample.crypto Sample.runtime) later refused).2 call) := by
  obtain ⟨c,response,accepted,hnew,hrefuses,-⟩ := sampleRefusal_ok
  exact ⟨c,response,accepted,hnew,refusal_final_iff hnew [.init sampleEntropy] response
    [.onAccepted accepted] hrefuses⟩

/-- An initiator that refused the policy has a session all the same. -/
theorem refusal_not_final : ¬∀ (C : Crypto) (rt : Runtime) (cfg : FederationInitiatorConfig)
    (c : FederationInitiator) (before : List InitiatorCall) (data : Bytes)
    (later : List InitiatorCall), FederationInitiator.new C cfg = .ok c →
      Refuses C rt (run (perform C rt) before c).2 data →
        ¬Established (run (perform C rt) later
          (run (perform C rt) (before++[.onResponse data]) c).2).2 := by
  intro hall
  obtain ⟨c,response,accepted,hnew,hrefuses,hestablished⟩ := sampleRefusal_ok
  exact hall _ _ _ c _ response _ hnew hrefuses hestablished

end FederationRefusal
end Semp
