import Semp.Reputation
import Semp.Blocklist

/-! The digest over the ids and the times of the observations of a domain.  The order in which
they are listed does not show in it, and neither do their metrics. -/
namespace Semp
namespace Reputation

structure GossipEntry where
  id : JsString
  timestamp : JsString

def GossipEntry.json (e : GossipEntry) : Json :=
  .obj [(js "id",.str e.id),(js "timestamp",.str e.timestamp)]

/-- The comparator does not put the second before the first. -/
def EntryLe (a b : GossipEntry) : Prop :=
  if a.id ≠ b.id then keyLe a.id b.id = true else keyLe a.timestamp b.timestamp = true

instance : DecidableRel EntryLe := fun a b => by
  unfold EntryLe
  infer_instance

def gossipEntries (observations : List Observation) : List GossipEntry :=
  observations.map fun o => ⟨o.id,o.timestamp⟩

structure GossipHash where
  domain : JsString
  hash : JsString
  algorithm : JsString
  as_of : ℤ

section Code
variable (lc : Locale)

def gossipDomain (domain : JsString) : JsString := lc.toLowerCase (trim domain)

def gossipPayload (domain : JsString) (observations : List Observation) : Members :=
  [(js "domain",.str (gossipDomain lc domain)),
    (js "entries",.arr (((gossipEntries observations).insertionSort EntryLe).map
      GossipEntry.json))]

def computeGossipHash (C : Crypto) (domain : JsString) (observations : List Observation)
    (now : JsDate) : Js GossipHash :=
  if trim domain = [] then raise (js "reputation: gossip hash requires a domain")
  else do
    let canonical ← Canonical.marshal (.obj (gossipPayload lc domain observations))
    let sum := (C.sha256 canonical).val
    let as_of ← JsDate.isoSecond now
    .ok ⟨gossipDomain lc domain,hex sum,js "sha256",as_of⟩

end Code

section Order
variable {a b c : GossipEntry}

theorem entryLe_iff : EntryLe a b ↔
    (a.id ≠ b.id ∧ keyLe a.id b.id = true) ∨
      (a.id = b.id ∧ keyLe a.timestamp b.timestamp = true) := by
  by_cases h : a.id = b.id <;> simp [EntryLe,h]

theorem entryLe_total (a b : GossipEntry) : EntryLe a b ∨ EntryLe b a := by
  rw [entryLe_iff,entryLe_iff]
  by_cases h : a.id = b.id
  · obtain ht | ht := keyLe_total a.timestamp b.timestamp
    · exact .inl (.inr ⟨h,ht⟩)
    · exact .inr (.inr ⟨h.symm,ht⟩)
  · obtain hi | hi := keyLe_total a.id b.id
    · exact .inl (.inl ⟨h,hi⟩)
    · exact .inr (.inl ⟨Ne.symm h,hi⟩)

theorem entryLe_antisymm (h : EntryLe a b) (h' : EntryLe b a) : a = b := by
  obtain ⟨ai,at'⟩ := a
  obtain ⟨bi,bt⟩ := b
  obtain ⟨hne,hab⟩ | ⟨he,hab⟩ := entryLe_iff.mp h
  · obtain ⟨-,hba⟩ | ⟨he,-⟩ := entryLe_iff.mp h'
    · exact absurd (keyLe_antisymm hab hba) hne
    · exact absurd he.symm hne
  · obtain ⟨hne,-⟩ | ⟨-,hba⟩ := entryLe_iff.mp h'
    · exact absurd he.symm hne
    · obtain rfl : ai = bi := he
      obtain rfl : at' = bt := keyLe_antisymm hab hba
      rfl

theorem entryLe_trans (h : EntryLe a b) (h' : EntryLe b c) : EntryLe a c := by
  rw [entryLe_iff] at *
  obtain ⟨hne,hab⟩ | ⟨he,hab⟩ := h
  · obtain ⟨hne',hbc⟩ | ⟨he',-⟩ := h'
    · refine .inl ⟨fun hac => hne ?_,keyLe_trans hab hbc⟩
      rw [← hac] at hbc
      exact keyLe_antisymm hab hbc
    · rw [he'] at hne hab
      exact .inl ⟨hne,hab⟩
  · rw [he]
    obtain ⟨hne',hbc⟩ | ⟨he',hbc⟩ := h'
    · exact .inl ⟨hne',hbc⟩
    · exact .inr ⟨he',keyLe_trans hab hbc⟩

instance : Std.Total EntryLe := ⟨entryLe_total⟩

instance : IsTrans GossipEntry EntryLe := ⟨fun _ _ _ => entryLe_trans⟩

/-- The sorted list is the same for two lists exactly when they hold the same entries. -/
theorem sort_eq_iff {xs ys : List GossipEntry} :
    xs.insertionSort EntryLe = ys.insertionSort EntryLe ↔ xs.Perm ys := by
  have hx : (xs.insertionSort EntryLe).Perm xs := List.perm_insertionSort _ _
  have hy : (ys.insertionSort EntryLe).Perm ys := List.perm_insertionSort _ _
  refine ⟨fun h => hx.symm.trans (h ▸ hy),fun h => ?_⟩
  refine (hx.trans (h.trans hy.symm)).eq_of_pairwise (fun _ _ _ _ => entryLe_antisymm) ?_ ?_
  · exact List.pairwise_insertionSort _ _
  · exact List.pairwise_insertionSort _ _

end Order

section Digest
variable {lc : Locale} {C : Crypto} {domain domain' : JsString} {obs obs' : List Observation}

theorem norm_entry (e : GossipEntry) : e.json.norm = e.json := by
  rw [GossipEntry.json,Json.norm_obj]
  rfl

theorem wf_gossipPayload (lc : Locale) (domain : JsString) (obs : List Observation) :
    (Json.obj (gossipPayload lc domain obs)).WF := by
  refine Json.wf_of_keys [js "domain",js "entries"] rfl (by decide) fun m hm => ?_
  obtain rfl | rfl := List.mem_pair.mp hm
  · exact Json.wf_str _
  · refine Json.wf_arr.mpr fun v hv => ?_
    obtain ⟨e,-,rfl⟩ := List.mem_map.mp hv
    exact Json.wf_of_keys [js "id",js "timestamp"] rfl (by decide) fun m hm => by
      obtain rfl | rfl := List.mem_pair.mp hm <;> exact Json.wf_str _

theorem json_injective : Function.Injective GossipEntry.json := by
  rintro ⟨i,t⟩ ⟨i',t'⟩ h
  simpa [GossipEntry.json] using h

/-- The payload can be read back from its canonical bytes. -/
theorem gossipPayload_eq_iff :
    Canonical.canonicalBytes (.obj (gossipPayload lc domain obs)) =
        Canonical.canonicalBytes (.obj (gossipPayload lc domain' obs')) ↔
      gossipDomain lc domain = gossipDomain lc domain' ∧
        (gossipEntries obs).Perm (gossipEntries obs') := by
  rw [Canonical.canonicalBytes_inj (wf_gossipPayload ..) (wf_gossipPayload ..),
    Json.norm_obj_eq_iff (wf_gossipPayload ..) (wf_gossipPayload ..),← sort_eq_iff]
  have hnorm (es : List GossipEntry) : (Json.arr (es.map GossipEntry.json)).norm =
      .arr (es.map GossipEntry.json) := by
    rw [Json.norm_arr,List.map_map]
    exact congrArg Json.arr (List.map_congr_left fun e _ => norm_entry e)
  constructor
  · intro h
    have hdomain := h (js "domain")
    have hentries := h (js "entries")
    change some (Json.norm (.str _)) = some (Json.norm (.str _)) at hdomain
    change some (Json.norm (.arr _)) = some (Json.norm (.arr _)) at hentries
    rw [Json.norm_str,Json.norm_str,Option.some.injEq,Json.str.injEq] at hdomain
    rw [hnorm,hnorm,Option.some.injEq,Json.arr.injEq] at hentries
    exact ⟨hdomain,List.map_injective_iff.mpr json_injective hentries⟩
  · rintro ⟨hdomain,hentries⟩ k
    rw [gossipPayload,gossipPayload,hdomain,hentries]

theorem hexByte_injective : Function.Injective hexByte := by
  intro x y h
  have hdigit {m n : ℕ} (hm : m < 16) (hn : n < 16)
      (h : JsonText.hexDigit m = JsonText.hexDigit n) : m = n := by
    have := congrArg JsonText.hexValue h
    rwa [JsonText.hexValue_hexDigit hm,JsonText.hexValue_hexDigit hn,Option.some.injEq] at this
  have hx := x.toNat_lt
  have hy := y.toNat_lt
  obtain ⟨h₁,h₂,-⟩ := List.cons.inj h |>.imp_right List.cons.inj
  have h₁ := hdigit (by omega) (by omega) h₁
  have h₂ := hdigit (by omega) (by omega) h₂
  exact UInt8.toNat_inj.mp (by omega)

theorem hex_injective : Function.Injective hex := by
  intro a b h
  induction a generalizing b with
  | nil =>
    cases b with
    | nil => rfl
    | cons y b => cases h
  | cons x a ih =>
    cases b with
    | nil => cases h
    | cons y b =>
      have happ : hexByte x++hex a = hexByte y++hex b := h
      obtain ⟨hx,hrest⟩ := List.append_inj happ rfl
      rw [hexByte_injective hx,ih hrest]

theorem computeGossipHash_some (lc : Locale) (C : Crypto) (obs : List Observation)
    (hdomain : trim domain ≠ []) (t : ℤ) :
    ∃ g, computeGossipHash lc C domain obs (some t) = .ok g := by
  rw [computeGossipHash,if_neg hdomain,Canonical.marshal_eq (wf_gossipPayload ..)]
  exact ⟨_,rfl⟩

/-- What was hashed. -/
theorem computeGossipHash_eq_ok {now : JsDate} {g : GossipHash}
    (h : computeGossipHash lc C domain obs now = .ok g) : g.hash =
      hex (C.sha256 (Canonical.canonicalBytes (.obj (gossipPayload lc domain obs)))).val := by
  unfold computeGossipHash at h
  split_ifs at h
  · cases h
  rw [Canonical.marshal_eq (wf_gossipPayload ..),ok_bind] at h
  obtain ⟨second,-,h⟩ := bind_eq_ok.mp h
  obtain rfl := Except.ok.inj h
  rfl

/-- Two hashes are equal exactly when the domains are, up to case and space around, and the
lists hold the same ids and times. -/
theorem computeGossipHash_eq_iff {now now' : JsDate} {g g' : GossipHash}
    (h : computeGossipHash lc C domain obs now = .ok g)
    (h' : computeGossipHash lc C domain' obs' now' = .ok g')
    (hsha : C.sha256 (Canonical.canonicalBytes (.obj (gossipPayload lc domain obs))) =
        C.sha256 (Canonical.canonicalBytes (.obj (gossipPayload lc domain' obs'))) →
      Canonical.canonicalBytes (.obj (gossipPayload lc domain obs)) =
        Canonical.canonicalBytes (.obj (gossipPayload lc domain' obs'))) :
    g.hash = g'.hash ↔ gossipDomain lc domain = gossipDomain lc domain' ∧
      (gossipEntries obs).Perm (gossipEntries obs') := by
  rw [computeGossipHash_eq_ok h,computeGossipHash_eq_ok h',← gossipPayload_eq_iff]
  refine ⟨fun heq => hsha (Subtype.ext (hex_injective heq)),fun heq => ?_⟩
  rw [heq]

end Digest

/-! Two observers that list the same two observations. -/
def otherObservation : Observation :=
  {sampleObservation with id := js "o-2",metrics := sampleMetrics 9 []}

def sampleLetters : Locale := ⟨⟨fun _ => .nan,fun _ => raiseType⟩,id⟩

/-- The order of the observations and blanks around the domain do not change the hash. -/
theorem computeGossipHash_eq_iff_sample : ∃ g g',
    computeGossipHash sampleLetters Sample.crypto (js "a.example")
      [sampleObservation,otherObservation] (some 0) = .ok g ∧
    computeGossipHash sampleLetters Sample.crypto (js " a.example")
      [otherObservation,{sampleObservation with metrics := sampleMetrics 0 []}] (some 1) = .ok g' ∧
    g.hash = g'.hash := by
  obtain ⟨g,hg⟩ := computeGossipHash_some sampleLetters Sample.crypto
    [sampleObservation,otherObservation] (show trim (js "a.example") ≠ [] by decide) 0
  obtain ⟨g',hg'⟩ := computeGossipHash_some sampleLetters Sample.crypto
    [otherObservation,{sampleObservation with metrics := sampleMetrics 0 []}]
    (show trim (js " a.example") ≠ [] by decide) 1
  have hsame : gossipDomain sampleLetters (js "a.example") =
        gossipDomain sampleLetters (js " a.example") ∧
      (gossipEntries [sampleObservation,otherObservation]).Perm
        (gossipEntries [otherObservation,
          {sampleObservation with metrics := sampleMetrics 0 []}]) :=
    ⟨by decide,.swap _ _ _⟩
  exact ⟨g,g',hg,hg',(computeGossipHash_eq_iff hg hg' fun _ =>
    gossipPayload_eq_iff.mpr hsame).mpr hsame⟩

end Reputation
end Semp
