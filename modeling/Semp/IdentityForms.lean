import Semp.FederationInitiator
import Semp.FederationResponder

/-! What the inner identity signatures of the handshakes are over: three plain
concatenations behind one prefix.  No role and no length is written into them, so only the
lengths of the parts keep them apart. -/
namespace Semp
open Handshake Federation

/-- What is signed behind `SEMP-IDENTITY:` in each role. -/
inductive IdentityForm
  | init (ephPub nonce : Bytes)
  | response (ephPub responderNonce initiatorNonce : Bytes)
  | confirm (sessionId : JsString) (confirmationHash : Digest)
deriving DecidableEq

namespace IdentityForm

/-- The parts behind the prefix. -/
def body : IdentityForm → Bytes
  | init ephPub nonce => ephPub++nonce
  | response ephPub responderNonce initiatorNonce => ephPub++responderNonce++initiatorNonce
  | confirm sessionId confirmationHash => utf8 sessionId++confirmationHash.val

/-- The bytes that are signed and verified. -/
def input (p : IdentityForm) : Bytes := utf8 identityPrefix++p.body

/-- A role, with the lengths of the parts; of a session id also whether it is proper
Unicode, as the encoder replaces what is not. -/
inductive Shape
  | init (ephPub nonce : ℕ)
  | response (ephPub responderNonce initiatorNonce : ℕ)
  | confirm (sessionId : ℕ) (wellFormed : Bool)
deriving DecidableEq

namespace Shape

def length : Shape → ℕ
  | init ephPub nonce => ephPub+nonce
  | response ephPub responderNonce initiatorNonce => ephPub+responderNonce+initiatorNonce
  | confirm sessionId _ => sessionId+32

def Proper : Shape → Prop
  | confirm _ wellFormed => wellFormed = true
  | _ => True

instance (s : Shape) : Decidable s.Proper := by
  cases s <;> unfold Proper <;> infer_instance

end Shape

def shape : IdentityForm → Shape
  | init ephPub nonce => .init ephPub.length nonce.length
  | response ephPub responderNonce initiatorNonce =>
    .response ephPub.length responderNonce.length initiatorNonce.length
  | confirm sessionId _ => .confirm (utf8 sessionId).length (Utf8.isWellFormed sessionId)

section Forms
variable {p q : IdentityForm}

theorem input_inj : p.input = q.input ↔ p.body = q.body := by
  rw [input,input,List.append_cancel_left_eq]

theorem length_body (p : IdentityForm) : p.body.length = p.shape.length := by
  cases p with
  | init e n => exact List.length_append
  | response e n m => rw [body,List.length_append,List.length_append]; rfl
  | confirm i d => rw [body,List.length_append,d.property]; rfl

/-- Parts of the same lengths can be read back. -/
theorem body_inj (hshape : p.shape = q.shape) (hp : p.shape.Proper) (h : p.body = q.body) :
    p = q := by
  cases p with
  | init e n =>
    cases q with
    | init e' n' =>
      obtain ⟨he,-⟩ := Shape.init.inj hshape
      obtain ⟨rfl,rfl⟩ := List.append_inj h he
      rfl
    | response e' n' m' => cases hshape
    | confirm i' h' => cases hshape
  | response e n m =>
    cases q with
    | init e' n' => cases hshape
    | response e' n' m' =>
      obtain ⟨he,hn,-⟩ := Shape.response.inj hshape
      obtain ⟨hen,rfl⟩ := List.append_inj h (by simp [he,hn])
      obtain ⟨rfl,rfl⟩ := List.append_inj hen he
      rfl
    | confirm i' h' => cases hshape
  | confirm i d =>
    cases q with
    | init e' n' => cases hshape
    | response e' n' m' => cases hshape
    | confirm i' d' =>
      obtain ⟨hi,hwf⟩ := Shape.confirm.inj hshape
      obtain ⟨hid,hd⟩ := List.append_inj h hi
      have hwf' : Utf8.isWellFormed i = true := hp
      obtain rfl := Utf8.textEncode_injOn hwf' (hwf ▸ hwf') hid
      rw [Subtype.ext hd]

/-- Bytes of the length of a shape, cut into its parts; a session id has to be given. -/
def cut (text : JsString) (hash : Digest) (bytes : Bytes) : Shape → IdentityForm
  | .init ephPub _ => .init (bytes.take ephPub) (bytes.drop ephPub)
  | .response ephPub responderNonce _ => .response (bytes.take ephPub)
      ((bytes.drop ephPub).take responderNonce) (bytes.drop (ephPub+responderNonce))
  | .confirm _ _ => .confirm text hash

theorem cut_spec (text : JsString) (hash : Digest) {bytes : Bytes} {s : Shape}
    (hlen : bytes.length = s.length)
    (htext : ∀ k w, s = .confirm k w →
      bytes = utf8 text++hash.val ∧ Utf8.isWellFormed text = w) :
    (cut text hash bytes s).shape = s ∧ (cut text hash bytes s).body = bytes := by
  cases s with
  | init e n =>
    have hlen : bytes.length = e+n := hlen
    exact ⟨by simp [cut,shape]; omega,List.take_append_drop ..⟩
  | response e n m =>
    have hlen : bytes.length = e+n+m := hlen
    refine ⟨by simp [cut,shape]; omega,?_⟩
    rw [cut,body,← List.drop_drop,List.append_assoc,List.take_append_drop,List.take_append_drop]
  | confirm k w =>
    obtain ⟨rfl,rfl⟩ := htext k w rfl
    have hlen : (utf8 text++hash.val).length = k+32 := hlen
    rw [List.length_append,hash.property,Nat.add_right_cancel_iff] at hlen
    exact ⟨by rw [cut,shape,hlen],rfl⟩

/-- A surrogate without its partner takes the three bytes of the replacement character. -/
theorem three_le_of_not_wellFormed {s : JsString} (h : Utf8.isWellFormed s = false) :
    3 ≤ (utf8 s).length := by
  have hlone {u : UInt16} (hu : Utf8.isHigh u = true ∨ Utf8.isLow u = true) :
      (Utf8.encodeScalar (Utf8.loneScalar u)).length = 3 := by
    rcases hu with hu | hu <;> simp [Utf8.loneScalar,hu,Utf8.replacement,Utf8.encodeScalar]
  unfold utf8 Utf8.textEncode
  fun_induction Utf8.isWellFormed s with
  | case1 => cases h
  | case2 u =>
    have hu : Utf8.isHigh u = true ∨ Utf8.isLow u = true := by
      cases hh : Utf8.isHigh u <;> simp_all
    simp [Utf8.scalars,hlone hu]
  | case3 u l rest hh ih =>
    cases hl : Utf8.isLow l with
    | true =>
      have hrest := ih (by simpa [hl] using h)
      simp only [Utf8.scalars,hh,hl,Bool.and_self,if_true,List.flatMap_cons,List.length_append]
      omega
    | false => simp [Utf8.scalars,hl,hlone (.inl hh)]
  | case4 u l rest hh ih =>
    simp only [Utf8.scalars,hh,Bool.false_and,Bool.false_eq_true,if_false,List.flatMap_cons,
      List.length_append]
    cases hl : Utf8.isLow u with
    | true => have := hlone (.inr hl); omega
    | false => have := ih (by simpa [hl] using h); omega

/-- `k` letters. -/
def letters (k : ℕ) : JsString := List.replicate k 97

theorem utf8_letters (k : ℕ) : utf8 (letters k) = List.replicate k 97 := by
  induction k with
  | zero => rfl
  | succ k ih =>
    have hcons : letters (k+1) = [97]++letters k := rfl
    have happ := Utf8.textEncode_append (s := [97]) (t := letters k) (by decide)
    rw [hcons,utf8,happ]
    exact congrArg (97::·) ih

theorem isWellFormed_letters (k : ℕ) : Utf8.isWellFormed (letters k) = true :=
  Utf8.isWellFormed_ascii fun u hu => by rw [List.eq_of_mem_replicate hu]; decide

def sampleHash : Digest := ⟨List.replicate 32 97,rfl⟩

/-- Before letters, a unit that is not half of a pair is encoded by itself. -/
theorem utf8_unit_letters {u : UInt16} (k : ℕ) :
    utf8 (u::letters k) = Utf8.encodeScalar (Utf8.loneScalar u)++List.replicate k 97 ∧
      Utf8.isWellFormed (u::letters k) = (!Utf8.isHigh u && !Utf8.isLow u) := by
  have hlow : Utf8.isLow 97 = false := by decide
  cases k with
  | zero => simp [letters,utf8,Utf8.textEncode,Utf8.scalars,Utf8.isWellFormed]
  | succ k =>
    have hletters := utf8_letters (k+1)
    have hwf := isWellFormed_letters (k+1)
    unfold utf8 Utf8.textEncode at hletters ⊢
    rw [letters,List.replicate_succ] at hletters hwf ⊢
    constructor
    · rw [Utf8.scalars,hlow,Bool.and_false,if_neg (by decide),List.flatMap_cons,hletters]
    · rw [Utf8.isWellFormed,hlow,hwf]
      cases Utf8.isHigh u <;> simp

/-- Two shapes of one length hold the same letters. -/
theorem confusion_of_proper {s t : Shape} (hs : s.Proper) (ht : t.Proper)
    (hlen : s.length = t.length) :
    ∃ p q : IdentityForm, p.shape = s ∧ q.shape = t ∧ p.body = q.body := by
  have hcut {s : Shape} (hs : s.Proper) :
      (cut (letters (s.length-32)) sampleHash (List.replicate s.length 97) s).shape = s ∧
        (cut (letters (s.length-32)) sampleHash (List.replicate s.length 97) s).body =
          List.replicate s.length 97 := by
    refine cut_spec _ _ List.length_replicate fun k w h => ?_
    subst h
    obtain rfl : w = true := hs
    have hk : (Shape.confirm k true).length-32 = k := Nat.add_sub_cancel k 32
    rw [hk,utf8_letters,sampleHash,List.replicate_append_replicate]
    exact ⟨rfl,isWellFormed_letters k⟩
  exact ⟨_,_,(hcut hs).1,(hcut ht).1,by rw [(hcut hs).2,(hcut ht).2,hlen]⟩

/-- An id that is not proper Unicode is signed like one with the replacement character, and
like any other parts of that length. -/
theorem confusion_of_malformed {k : ℕ} {t : Shape} (hk : 3 ≤ k) (hlen : k+32 = t.length) :
    ∃ p q : IdentityForm, p.shape = .confirm k false ∧ q.shape = t ∧ p.body = q.body ∧
      p ≠ q := by
  let bytes : Bytes := [0xEF,0xBF,0xBD]++List.replicate (k-3) 97++sampleHash.val
  have hbytes : bytes.length = k+32 := by
    simp only [bytes,sampleHash,List.length_append,List.length_replicate,List.length_cons,
      List.length_nil]
    omega
  have hunit {u : UInt16} (hu : Utf8.encodeScalar (Utf8.loneScalar u) = [0xEF,0xBF,0xBD]) :
      bytes = utf8 (u::letters (k-3))++sampleHash.val := by
    rw [(utf8_unit_letters (k-3)).1,hu]
  have hp := cut_spec (0xD800::letters (k-3)) sampleHash
    (s := .confirm k false) hbytes fun k' w h =>
      ⟨hunit (by decide),(utf8_unit_letters _).2.trans (Shape.confirm.inj h).2⟩
  by_cases ht : t.Proper
  · have hq := cut_spec (0xFFFD::letters (k-3)) sampleHash (s := t) (hbytes.trans hlen) fun k' w h => by
        subst h
        exact ⟨hunit (by decide),(utf8_unit_letters _).2.trans (Eq.symm ht)⟩
    exact ⟨_,_,hp.1,hq.1,hp.2.trans hq.2.symm,by cases t <;> simp [cut]⟩
  · have hq := cut_spec (0xD801::letters (k-3)) sampleHash (s := t) (hbytes.trans hlen) fun k' w h => by
        subst h
        exact ⟨hunit (by decide),(utf8_unit_letters _).2.trans
          (Eq.symm (Bool.eq_false_of_not_eq_true ht))⟩
    exact ⟨_,_,hp.1,hq.1,hp.2.trans hq.2.symm,by cases t <;> simp [cut]⟩

/-- Forms of two shapes are kept apart exactly when their lengths differ, or when they are of
one role with parts of the same lengths and any session id in them is proper Unicode. -/
theorem separated_iff (p q : IdentityForm) :
    (∀ p' q' : IdentityForm, p'.shape = p.shape → q'.shape = q.shape →
      p'.input = q'.input → p' = q') ↔
    p.shape.length ≠ q.shape.length ∨ p.shape = q.shape ∧ p.shape.Proper := by
  constructor
  · intro h
    by_contra hcond
    rw [not_or,not_not,not_and] at hcond
    obtain ⟨hlen,himproper⟩ := hcond
    have hmalformed {p : IdentityForm} (hp : ¬p.shape.Proper) :
        ∃ k, p.shape = .confirm k false ∧ 3 ≤ k := by
      cases p with
      | init e n => exact (hp trivial).elim
      | response e n m => exact (hp trivial).elim
      | confirm i d =>
        have hwf : Utf8.isWellFormed i = false := Bool.eq_false_of_not_eq_true hp
        exact ⟨(utf8 i).length,by rw [shape,hwf],three_le_of_not_wellFormed hwf⟩
    by_cases hp : p.shape.Proper
    · by_cases hq : q.shape.Proper
      · obtain ⟨p',q',hp',hq',hb⟩ := confusion_of_proper hp hq hlen
        have heq := h p' q' hp' hq' (input_inj.mpr hb)
        exact himproper (by rw [← hp',← hq',heq]) hp
      · obtain ⟨k,hk,hle⟩ := hmalformed hq
        obtain ⟨q',p',hq',hp',hb,hne⟩ := confusion_of_malformed hle (t := p.shape)
          (by rw [hlen,hk]; rfl)
        exact hne (h p' q' hp' (hq'.trans hk.symm) (input_inj.mpr hb.symm)).symm
    · obtain ⟨k,hk,hle⟩ := hmalformed hp
      obtain ⟨p',q',hp',hq',hb,hne⟩ := confusion_of_malformed hle (t := q.shape)
        (by rw [← hlen,hk]; rfl)
      exact hne (h p' q' (hp'.trans hk.symm) hq' (input_inj.mpr hb))
  · rintro h p' q' hp' hq' hinput
    have hb := input_inj.mp hinput
    rcases h with h | ⟨heq,hproper⟩
    · have hlen := congrArg List.length hb
      rw [length_body,length_body,hp',hq'] at hlen
      exact absurd hlen h
    · exact body_inj (hp'.trans (heq.trans hq'.symm)) (hp' ▸ hproper) hb

/-- A RESPONSE to an INIT with an empty nonce is signed as an INIT. -/
theorem not_separated : ¬∀ p q : IdentityForm, p.input = q.input → p = q := by
  intro h
  have := h (.response (List.replicate 32 9) (List.replicate 32 1) [])
    (.init (List.replicate 32 9) (List.replicate 32 1)) (by decide +kernel)
  cases this

end Forms

section Code
variable {C : Crypto} {rt : Runtime}

/-- With the key sizes of the suites and nonces of 32 bytes, as the messages document them,
an INIT and a RESPONSE are never signed alike. -/
theorem input_inj_of_documented {p q : IdentityForm}
    (hp : (∃ e, p.shape = .init e 32 ∧ (e = 32 ∨ e = hybridPublicKeySize)) ∨
      ∃ e, p.shape = .response e 32 32 ∧ (e = 32 ∨ e = hybridCiphertextSize))
    (hq : (∃ e, q.shape = .init e 32 ∧ (e = 32 ∨ e = hybridPublicKeySize)) ∨
      ∃ e, q.shape = .response e 32 32 ∧ (e = 32 ∨ e = hybridCiphertextSize))
    (h : p.input = q.input) : p = q := by
  have hb := input_inj.mp h
  have hlen := congrArg List.length hb
  rw [length_body,length_body] at hlen
  rcases hp with ⟨e,he,rfl | rfl⟩ | ⟨e,he,rfl | rfl⟩ <;>
    rcases hq with ⟨e',he',rfl | rfl⟩ | ⟨e',he',rfl | rfl⟩ <;>
    first
      | exact body_inj (he.trans he'.symm) (by rw [he]; trivial) hb
      | exact absurd (he ▸ he' ▸ hlen) (by decide)

/-- What the server checks an identity signature over. -/
theorem identitySigned_eq (sessionId : JsString) (confirmationHash : Digest) :
    identitySigned sessionId confirmationHash.val = (confirm sessionId confirmationHash).input :=
  rfl

/-- An inner proof that passes is a signature over its form. -/
theorem verify_of_checkIdentityProof {msg : Json} {pk : Bytes} {message : JsString}
    (p : IdentityForm) (h : checkIdentityProof C rt msg pk p.body message = .ok ()) :
    ∃ sig, verify C pk sig p.input = true := by
  obtain ⟨proof,-,h⟩ := bind_eq_ok.mp h
  obtain ⟨signature,-,h⟩ := bind_eq_ok.mp h
  obtain ⟨sig,-,h⟩ := bind_eq_ok.mp h
  exact ⟨sig,require_eq_ok.mp h⟩

/-- The proof in a RESPONSE is, for any INIT it answers, also the proof of an INIT whose nonce
is the two nonces. -/
theorem response_verifies_as_init (laws : SignLaws C) {s : FederationResponder}
    {a : FederationResponder.PeerInit} {sessionId respEphKeyId : JsString}
    {serverNonce respEphPub bytes pk : Bytes}
    (h : FederationResponder.composeResponse C s a sessionId serverNonce respEphPub respEphKeyId =
      .ok bytes) (hpk : publicKeyFromSeed C s.cfg.localDomainSeed = .ok pk) :
    ∃ sig, sign C s.cfg.localDomainSeed (response respEphPub serverNonce a.clientNonce).input =
        .ok sig ∧
      verify C pk sig (init respEphPub (serverNonce++a.clientNonce)).input = true := by
  obtain ⟨sig,hsig,-⟩ := bind_eq_ok.mp h
  refine ⟨sig,hsig,?_⟩
  rw [input,body,← List.append_assoc respEphPub]
  exact verify_sign laws hpk hsig

end Code

end IdentityForm
end Semp
