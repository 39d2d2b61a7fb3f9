import Semp.RekeyAgreement

/-! Successive rekeys of one session, in order: both ends go from epoch to epoch together, the
keys they leave are zeroed, and what is sealed in one direction is not opened in the other. -/
namespace Semp
namespace Rekey
open Handshake Method

/-- What the two ends bring to one rekey. -/
structure Exchange where
  client : RekeyClientOptions
  clientEntropy : RekeyEntropy
  server : RekeyServerOptions
  serverEntropy : RekeyEntropy
  newSessionId : JsString

/-- The end that initiates the rekeys, and the end that responds. -/
structure Ends where
  client : Connection
  server : Connection

/-- The frame that a connection sent last. -/
def lastSent (c : Connection) : Bytes := c.transport.sent.getLastD []

def atClient {α : Type} (x : Method Thrown Connection α) : Method Thrown Ends α := do
  let w ← get
  let r := x.call w.client
  modify fun w => {w with client := r.2}
  liftM r.1

def atServer {α : Type} (x : Method Thrown Connection α) : Method Thrown Ends α := do
  let w ← get
  let r := x.call w.server
  modify fun w => {w with server := r.2}
  liftM r.1

section Code
variable (C : Crypto) (rt : Runtime)

/-- `rekeyClient` at one end and `rekeyServer` at the other: each frame is received when it was
sent.  The results are the session ids that the two calls resolve with. -/
def exchange (x : Exchange) : Method Thrown Ends (Option Json × JsString) := do
  let pending ← atClient (startRekey C x.client x.clientEntropy)
  let w ← get
  let serverId ← atServer (answerRekey C rt x.server x.serverEntropy x.newSessionId
    (some (lastSent w.client)))
  let w ← get
  let clientId ← atClient (finishRekey C rt pending (some (lastSent w.server)))
  return (clientId,serverId)

def exchanges : List Exchange → Method Thrown Ends Unit
  | [] => return ()
  | x::xs => do
    let _ ← exchange C rt x
    exchanges xs

end Code

@[simp] theorem call_atClient {α : Type} (x : Method Thrown Connection α) (w : Ends) :
    (atClient x).call w = ((x.call w.client).1,{w with client := (x.call w.client).2}) := by
  rw [atClient,get_bind,modify_bind,call_lift]

@[simp] theorem call_atServer {α : Type} (x : Method Thrown Connection α) (w : Ends) :
    (atServer x).call w = ((x.call w.server).1,{w with server := (x.call w.server).2}) := by
  rw [atServer,get_bind,modify_bind,call_lift]

/-! The directions of a session. -/

/-- The keys under which an end seals what it sends. -/
def sendKeys (s : Session) : Option (Bytes × Bytes) :=
  s.keys.map (pickRekeyKeys · s.role.direction)

/-- The keys under which an end opens what it receives. -/
def receiveKeys (s : Session) : Option (Bytes × Bytes) :=
  s.keys.map (pickRekeyKeys · s.role.direction.other)

@[simp] theorem Direction.other_other (d : Direction) : d.other.other = d := by
  cases d <;> rfl

theorem Direction.other_ne (d : Direction) : d.other ≠ d := by
  cases d <;> decide

section Swapped
variable {a b : Connection} {e : Epoch}

/-- Each end opens under the keys under which the other seals. -/
theorem Paired.swapped (h : Paired a b e) :
    sendKeys b.session = receiveKeys a.session ∧ receiveKeys b.session = sendKeys a.session := by
  rw [sendKeys,sendKeys,receiveKeys,receiveKeys,h.initiator.keys,h.responder.keys,h.role,
    Role.other_direction,Direction.other_other]
  exact ⟨rfl,rfl⟩

end Swapped

theorem appendLP_name_length (d : Direction) : (appendLP (utf8 d.name)).length = 7 := by
  cases d <;> rfl

/-- The head of the associated data is the direction. -/
theorem take_rekeyAAD (d : Direction) (id macKey rest : Bytes) :
    (rekeyAAD d id macKey++rest).take 7 = appendLP (utf8 d.name) := by
  rw [rekeyAAD,List.append_assoc,List.append_assoc,← appendLP_name_length d,List.take_left]

theorem appendLP_name_injective {d d' : Direction}
    (h : appendLP (utf8 d.name) = appendLP (utf8 d'.name)) : d = d' := by
  cases d <;> cases d' <;> first | rfl | exact absurd h (by decide)

/-- The associated data tells the direction. -/
theorem rekeyAAD_direction {d d' : Direction} {id id' macKey macKey' : Bytes}
    (h : rekeyAAD d id macKey = rekeyAAD d' id' macKey') : d = d' := by
  have htake := take_rekeyAAD d id macKey []
  rw [h,take_rekeyAAD] at htake
  exact appendLP_name_injective htake.symm

/-- What is relied on of ChaCha20-Poly1305 under the keys of two epochs: a ciphertext opens only
with the associated data it was sealed with. -/
def Authentic (C : Crypto) (e e' : Epoch) : Prop :=
  ∀ d d' nonce nonce' text text' ct,
    C.chachaEncrypt (pickRekeyKeys e.keys d).1 nonce
      (rekeyAAD d (utf8 e.id) (pickRekeyKeys e.keys d).2) text = .ok ct →
    C.chachaDecrypt (pickRekeyKeys e'.keys d').1 nonce'
      (rekeyAAD d' (utf8 e'.id) (pickRekeyKeys e'.keys d').2) ct = .ok text' →
    rekeyAAD d' (utf8 e'.id) (pickRekeyKeys e'.keys d').2 =
      rekeyAAD d (utf8 e.id) (pickRekeyKeys e.keys d).2

/-- What was sealed in one direction, in any epoch, is no message of the other direction for
the sessions of the epoch `e'`: as it is it is refused, and relabelled it does not open. -/
structure Apart (C : Crypto) (rt : Runtime) (e' : Epoch) : Prop where
  refused : ∀ e (s s' : Session), s.Holds e → s'.Holds e' → ∀ d text nonce m,
    sealRekeyMessage C s d text nonce = .ok m →
      ∀ kind b, readBody C rt s' m.frame d.other kind ≠ .ok b
  relabelled : ∀ e (s s' : Session), s.Holds e → s'.Holds e' → Authentic C e e' →
    ∀ d text nonce m, sealRekeyMessage C s d text nonce = .ok m →
      ∀ t, openRekeyMessage C rt s' (.obj {m with direction := d.other}.members) ≠ .ok t

variable {C : Crypto} {rt : Runtime}

theorem apart (C : Crypto) (rt : Runtime) (e' : Epoch) : Apart C rt e' where
  refused e s s' hs hs' d text nonce m hm kind b hb := by
    obtain ⟨-,ct,-,rfl⟩ := (sealRekeyMessage_eq_ok hs).mp hm
    exact Direction.other_ne d (SealedRekey.of_read hs'.id hb).1
  relabelled e s s' hs hs' hauth d text nonce m hm t ht := by
    obtain ⟨hn,ct,hct,rfl⟩ := (sealRekeyMessage_eq_ok hs).mp hm
    have hid := openRekeyMessage_id hs'.id ht
    have hopen : openRekeyMessage C rt s' _ = _ := openRekeyMessage_eq hs' d.other nonce ct hn
    rw [hid] at hopen
    rw [hopen] at ht
    rw [← hid] at ht
    exact Direction.other_ne d (rekeyAAD_direction (hauth _ _ _ _ _ _ _ hct ht))

/-! Runs of exchanges. -/

/-- Both ends are live in one epoch, with keys of the right size. -/
structure Live (w : Ends) (e : Epoch) : Prop where
  paired : Paired w.client w.server e
  client : w.client.Open
  server : w.server.Open
  sized : Sized e

/-- The random bytes of both ends have the sizes the libraries ask for. -/
structure Exchange.Drawn (x : Exchange) : Prop where
  client : Rekey.Drawn x.client.ephemeralPriv x.clientEntropy
  server : Rekey.Drawn x.server.ephemeralPriv x.serverEntropy

/-- What an exchange does to the two ends. -/
structure Rekeyed (C : Crypto) (rt : Runtime) (x : Exchange) (w w' : Ends) (e e' : Epoch) :
    Prop where
  id : e'.id = x.newSessionId
  paired : Paired w'.client w'.server e'
  sends : sendKeys w'.client.session = receiveKeys w'.server.session
  receives : receiveKeys w'.client.session = sendKeys w'.server.session
  client : w'.client.session.retired = w.client.session.retired++[e.keys.zeroed]
  server : w'.server.session.retired = w.server.session.retired++[e.keys.zeroed]
  zero : e.keys.zeroed.AllZero
  apart : Apart C rt e'

section Runs
variable {w : Ends} {e : Epoch} {x : Exchange} {xs : List Exchange}

/-- An exchange of live ends goes through, and both go on to the same epoch. -/
theorem Live.next (laws : Laws C) (rt : Runtime) (h : Live w e) (hx : x.Drawn) :
    ∃ w' e', (Rekey.exchange C rt x).call w = (.ok (some (.str e'.id),e'.id),w') ∧
      Live w' e' ∧ Rekeyed C rt x w w' e e' := by
  obtain ⟨p,pub,i,hstart,-,-,hs⟩ := startRekey_ok laws h.paired.initiator h.client h.sized hx.client
  have hdir : w.server.session.role.other.direction = w.client.session.role.direction := by
    rw [h.paired.role,Role.other_other]
  obtain ⟨f,e',hid,hsized,hans,hanswer⟩ := answerRekey_ok rt laws h.paired.responder h.server
    h.sized x.newSessionId hx.server (hdir ▸ hs)
  have hfinish := (hdir ▸ hans).finish (c := w.client.put i) rt laws h.paired.initiator
    h.client.session hs
  have hi : lastSent (w.client.put i) = i := Connection.put_last ..
  have hf : lastSent ((w.server.put f).moved e e') = f := w.server.put_last f
  let w' : Ends := ⟨(w.client.put i).moved e e',(w.server.put f).moved e e'⟩
  have hcall : (Rekey.exchange C rt x).call w = (.ok (some (.str e'.id),e'.id),w') := by
    rw [Rekey.exchange,bind_of_ok ((call_atClient ..).trans (by rw [hstart])),get_bind]
    rw [hi,bind_of_ok ((call_atServer ..).trans (by rw [hanswer])),get_bind]
    rw [hf,bind_of_ok ((call_atClient ..).trans (by rw [hfinish])),call_pure,hid]
  have hpaired : Paired w'.client w'.server e' :=
    ⟨Connection.moved_holds ..,Connection.moved_holds ..,h.paired.role⟩
  exact ⟨w',e',hcall,⟨hpaired,⟨h.client.session,h.client.transport⟩,
    ⟨h.server.session,h.server.transport⟩,hsized⟩,hid,hpaired,
    hpaired.swapped.2.symm,hpaired.swapped.1.symm,rfl,rfl,SessionKeys.zeroed_allZero _,
    apart C rt e'⟩

/-- Any number of exchanges keep the two ends live. -/
theorem Live.many (laws : Laws C) (rt : Runtime) (h : Live w e)
    (hxs : ∀ x ∈ xs, x.Drawn) :
    ∃ w' e', (Rekey.exchanges C rt xs).call w = (.ok (),w') ∧ Live w' e' := by
  induction xs generalizing w e with
  | nil => exact ⟨w,e,rfl,h⟩
  | cons x xs ih =>
    obtain ⟨w₁,e₁,hcall,h₁,-⟩ := h.next laws rt (hxs x List.mem_cons_self)
    obtain ⟨w₂,e₂,hcalls,h₂⟩ := ih h₁ fun y hy => hxs y (List.mem_cons_of_mem x hy)
    exact ⟨w₂,e₂,(bind_of_ok hcall _).trans hcalls,h₂⟩

/-- After any number of exchanges the next one goes through: both ends hold the same new id
and the same keys, each for the other's direction, the keys they leave are zeroed, and no message
of one direction is one of the other. -/
theorem exchanges_agree (laws : Laws C) (rt : Runtime) (h : Live w e) (xs : List Exchange)
    (x : Exchange) (hdrawn : ∀ y ∈ xs++[x], y.Drawn) :
    ∃ w₁ e₁ w₂ e₂, (exchanges C rt xs).call w = (.ok (),w₁) ∧ Live w₁ e₁ ∧
      (exchange C rt x).call w₁ = (.ok (some (.str e₂.id),e₂.id),w₂) ∧
      Rekeyed C rt x w₁ w₂ e₁ e₂ := by
  obtain ⟨w₁,e₁,hcalls,h₁⟩ := h.many laws rt fun y hy => hdrawn y (List.mem_append_left _ hy)
  obtain ⟨w₂,e₂,hcall,-,h₂⟩ := h₁.next laws rt (hdrawn x (by simp))
  exact ⟨w₁,e₁,w₂,e₂,hcalls,h₁,hcall,h₂⟩

end Runs

/-! A sample cipher whose tag is the head of the associated data, and two exchanges over it. -/
def headSeal (key nonce aad text : Bytes) : Js Bytes :=
  if key.length = 32 ∧ nonce.length = 12 then .ok (text++Sample.fit 16 aad)
  else raise (js "invalid key or nonce")

def headOpen (key nonce aad text : Bytes) : Js Bytes :=
  if key.length = 32 ∧ nonce.length = 12 ∧ text.drop (text.length-16) = Sample.fit 16 aad then
    .ok (text.take (text.length-16))
  else raise (js "invalid tag")

def headCrypto : Crypto := {Sample.crypto with chachaEncrypt := headSeal, chachaDecrypt := headOpen}

theorem headOpen_tag {key nonce aad aad' text text' : Bytes}
    (h : headOpen key nonce aad' (text++Sample.fit 16 aad) = .ok text') :
    Sample.fit 16 aad = Sample.fit 16 aad' := by
  have hlen : (text++Sample.fit 16 aad).length-16 = text.length := by simp
  rw [headOpen,hlen,List.drop_left] at h
  split_ifs at h with htag
  · exact htag.2.2
  · cases h

theorem headCrypto_laws : Laws headCrypto where
  dh := ⟨Sample.laws.dh.publicKey_ok,Sample.laws.dh.publicKey_length,Sample.laws.dh.agree_length,
    Sample.laws.dh.agree_comm⟩
  kem := ⟨Sample.laws.kem.keygen_ok,Sample.laws.kem.keygen_length,
    Sample.laws.kem.decapsulate_encapsulate,Sample.laws.kem.encapsulate_length⟩
  sig := ⟨Sample.laws.sig.publicKey_ok,Sample.laws.sig.verify_sign⟩
  kdf := ⟨Sample.laws.kdf.expand_length⟩
  aead := {
    key_length := fun key nonce aad text ct h => by
      change headSeal key nonce aad text = _ at h
      rw [headSeal] at h
      split_ifs at h with hsize
      · exact hsize.1
      · cases h
    decrypt_encrypt := fun key nonce aad text hk hn => by
      have hlen : (text++Sample.fit 16 aad).length-16 = text.length := by simp
      refine ⟨text++Sample.fit 16 aad,if_pos ⟨hk,hn⟩,by simp,?_⟩
      change headOpen key nonce aad _ = _
      rw [headOpen,hlen,List.drop_left,List.take_left,if_pos ⟨hk,hn,rfl⟩] }

/-- The direction is in the head of the associated data. -/
theorem headCrypto_authentic (e : Epoch) : Authentic headCrypto e e := by
  intro d d' nonce nonce' text text' ct hseal hopen
  change headSeal _ _ _ _ = _ at hseal
  change headOpen _ _ _ _ = _ at hopen
  rw [headSeal] at hseal
  split_ifs at hseal
  · obtain rfl := Except.ok.inj hseal
    have htag := congrArg (List.take 7) (headOpen_tag hopen)
    rw [Sample.fit,Sample.fit,List.take_take,List.take_take,Nat.min_eq_left (by decide),
      take_rekeyAAD,take_rekeyAAD] at htag
    rw [appendLP_name_injective htag]
  · cases hseal

def sampleEnds : Ends := ⟨fresh sampleEpoch .client,fresh sampleEpoch .server⟩

theorem sampleEnds_live : Live sampleEnds sampleEpoch where
  paired := sample_paired
  client := fresh_open ..
  server := fresh_open ..
  sized := sample_sized

def sampleExchange (newSessionId : JsString) : Exchange :=
  ⟨⟨none,none⟩,sampleEntropy 1,⟨none,none⟩,sampleEntropy 2,newSessionId⟩

theorem sampleExchange_drawn (newSessionId : JsString) : (sampleExchange newSessionId).Drawn :=
  ⟨sample_drawn 1,sample_drawn 2⟩

theorem exchanges_agree_sample : ∃ w₁ e₁ w₂ e₂,
    (exchanges headCrypto Sample.runtime [sampleExchange (js "session-2")]).call sampleEnds =
      (.ok (),w₁) ∧
    Live w₁ e₁ ∧
    (exchange headCrypto Sample.runtime (sampleExchange (js "session-3"))).call w₁ =
      (.ok (some (.str e₂.id),e₂.id),w₂) ∧
    Rekeyed headCrypto Sample.runtime (sampleExchange (js "session-3")) w₁ w₂ e₁ e₂ ∧
    Authentic headCrypto e₂ e₂ := by
  obtain ⟨w₁,e₁,w₂,e₂,hcalls,h₁,hcall,h₂⟩ := exchanges_agree headCrypto_laws Sample.runtime
    sampleEnds_live [sampleExchange (js "session-2")] (sampleExchange (js "session-3")) (by
      intro y hy
      simp only [List.cons_append,List.nil_append,List.mem_cons,List.not_mem_nil,or_false] at hy
      rcases hy with rfl | rfl <;> exact sampleExchange_drawn _)
  exact ⟨w₁,e₁,w₂,e₂,hcalls,h₁,hcall,h₂,headCrypto_authentic e₂⟩

end Rekey
end Semp
