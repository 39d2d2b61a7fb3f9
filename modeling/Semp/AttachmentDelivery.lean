import Semp.AttachmentBinding
import Semp.Envelope
import Semp.Cells
import Semp.JsMap

/-! A file on its way.  Its entry goes among the extensions of an enclosure, the enclosure into an
envelope and the ciphertext into a store; whoever opens the envelope finds the entry, fetches the
ciphertext and has the file. -/
namespace Semp
namespace LargeAttachment

def extensionKey : JsString := js "semp.dev/large-attachment"

/-- The check of the entries, the first of which is entry `i`. -/
def readItems (i : ℕ) : List Json → Js (List Members)
  | [] => .ok []
  | .obj item::vs => do
    let items ← readItems (i+1) vs
    .ok (item::items)
  | _::_ => raise (js "largeattachment: extension data.items["++natText i++js "] is not an object")

def readFromExtensions (extensions : Option Members) : Js (List Members) :=
  match extensions.bind fun ms => lookup ms extensionKey with
  | none => .ok []
  | some (.obj entry) =>
    match lookup entry (js "data") with
    | none => .ok []
    | some (.obj data) =>
      match lookup data (js "items") with
      | none => .ok []
      | some (.arr items) => readItems 0 items
      | some _ => raise (js "largeattachment: extension data.items is not an array")
    | some _ => raise (js "largeattachment: extension data is not an object")
  | some _ =>
    raise (js "largeattachment: extensions["++JsonText.stringify (.str extensionKey)++
      js "] is not an object")

/-- `{ data: { items } }` -/
def extensionData (items : List Members) : Json :=
  .obj [(js "data",.obj [(js "items",.arr (items.map .obj))])]

def removeFromExtensions (extensions : Option Members) : Members :=
  (extensions.getD []).filter fun m => m.1 ≠ extensionKey

def setOnExtensions (extensions : Option Members) (items : List Members) : Members :=
  match items with
  | [] => removeFromExtensions extensions
  | item::items => assign (extensions.getD []) extensionKey (extensionData (item::items))

def appendToExtensions (extensions : Option Members) (newItems : List Members) : Js Members := do
  let existing ← readFromExtensions extensions
  .ok (setOnExtensions extensions (existing++newItems))

def hasId (id : JsString) (item : Members) : Bool := isStr (lookup item (js "id")) id

def findById (extensions : Option Members) (id : JsString) : Js (Option Members) := do
  let items ← readFromExtensions extensions
  .ok (items.find? (hasId id))

/-- A change of the entries of an enclosure that is being written. -/
inductive Edit
  | append (items : List Members)
  | set (items : List Members)
  | remove

/-- A change that throws leaves the extensions as they are. -/
def Edit.apply (extensions : Option Members) : Edit → Option Members
  | .append items =>
    match appendToExtensions extensions items with
    | .ok ms => some ms
    | .error _ => extensions
  | .set items => some (setOnExtensions extensions items)
  | .remove => some (removeFromExtensions extensions)

/-- The change of the list of entries. -/
def Edit.items (read : Js (List Members)) : Edit → Js (List Members)
  | .append items => read.map (·++items)
  | .set items => .ok items
  | .remove => .ok []

section Edits
variable {extensions : Option Members} {items : List Members} {k id : JsString}

theorem readItems_objs (i : ℕ) (items : List Members) :
    readItems i (items.map .obj) = .ok items := by
  induction items generalizing i with
  | nil => rfl
  | cons item items ih =>
    rw [List.map_cons,readItems,ih]
    rfl

theorem readItems_eq_ok {i : ℕ} {vs : List Json} (h : readItems i vs = .ok items) :
    vs = items.map .obj := by
  induction vs generalizing i items with
  | nil =>
    obtain rfl := Except.ok.inj h
    rfl
  | cons v vs ih =>
    cases v with
    | obj item =>
      obtain ⟨rest,hrest,h⟩ := bind_eq_ok.mp h
      obtain rfl := Except.ok.inj h
      rw [ih hrest,List.map_cons]
    | _ => cases h

theorem read_remove (extensions : Option Members) :
    readFromExtensions (some (removeFromExtensions extensions)) = .ok [] := by
  have hnone : lookup (removeFromExtensions extensions) extensionKey = none := by
    rw [lookup_eq_none,mem_keys]
    rintro ⟨v,hv⟩
    exact of_decide_eq_true (List.mem_filter.mp hv).2 rfl
  rw [readFromExtensions,Option.bind_some,hnone]

/-- What was set is read. -/
theorem read_set (extensions : Option Members) (items : List Members) :
    readFromExtensions (some (setOnExtensions extensions items)) = .ok items := by
  cases items with
  | nil => exact read_remove extensions
  | cons item items =>
    rw [readFromExtensions,Option.bind_some,setOnExtensions,lookup_assign_self]
    exact readItems_objs 0 (item::items)

theorem read_apply (extensions : Option Members) (e : Edit) :
    readFromExtensions (e.apply extensions) = e.items (readFromExtensions extensions) := by
  cases e with
  | append items =>
    cases hread : readFromExtensions extensions with
    | error err =>
      rw [Edit.apply,appendToExtensions,hread]
      exact hread
    | ok existing =>
      rw [Edit.apply,appendToExtensions,hread]
      exact read_set extensions (existing++items)
  | set items => exact read_set extensions items
  | remove => exact read_remove extensions

/-- The extensions hold the list of entries through all changes. -/
theorem read_edited (extensions : Option Members) (edits : List Edit) :
    readFromExtensions (edits.foldl Edit.apply extensions) =
      edits.foldl Edit.items (readFromExtensions extensions) := by
  induction edits generalizing extensions with
  | nil => rfl
  | cons e edits ih => rw [List.foldl_cons,List.foldl_cons,ih,read_apply]

theorem lookup_remove (h : k ≠ extensionKey) :
    lookup (removeFromExtensions extensions) k = lookup (extensions.getD []) k :=
  lookup_filter_ne _ h

theorem lookup_set (h : k ≠ extensionKey) :
    lookup (setOnExtensions extensions items) k = lookup (extensions.getD []) k := by
  cases items with
  | nil => exact lookup_remove h
  | cons item items => exact lookup_assign_ne _ h

/-- No change touches another extension. -/
theorem lookup_edited (h : k ≠ extensionKey) (extensions : Option Members) (edits : List Edit) :
    lookup ((edits.foldl Edit.apply extensions).getD []) k = lookup (extensions.getD []) k := by
  induction edits generalizing extensions with
  | nil => rfl
  | cons e edits ih =>
    rw [List.foldl_cons,ih]
    cases e with
    | append items =>
      rw [Edit.apply]
      cases happend : appendToExtensions extensions items with
      | error err => rfl
      | ok ms =>
        obtain ⟨existing,-,hms⟩ := bind_eq_ok.mp happend
        obtain rfl := Except.ok.inj hms
        exact lookup_set h
    | set items => exact lookup_set h
    | remove => exact lookup_remove h

/-- The entries under a path, none where it breaks off. -/
def Reads : List JsString → Json → List Members → Prop
  | [],v,items => v = .arr (items.map .obj)
  | k::path,.obj ms,items =>
    match lookup ms k with
    | none => items = []
    | some v => Reads path v items
  | _::_,_,_ => False

theorem read_eq_ok {ms : Members} : readFromExtensions (some ms) = .ok items ↔
    Reads [extensionKey,js "data",js "items"] (.obj ms) items := by
  rw [readFromExtensions,Option.bind_some,Reads]
  cases lookup ms extensionKey with
  | none => simp [eq_comm]
  | some v =>
    cases v with
    | obj entry =>
      dsimp only
      rw [Reads]
      cases lookup entry (js "data") with
      | none => simp [eq_comm]
      | some v =>
        cases v with
        | obj data =>
          dsimp only
          rw [Reads]
          cases lookup data (js "items") with
          | none => simp [eq_comm]
          | some v =>
            cases v with
            | arr vs =>
              dsimp only
              rw [Reads,Json.arr.injEq]
              refine ⟨readItems_eq_ok,?_⟩
              rintro rfl
              exact readItems_objs 0 items
            | _ => simp [Reads,raise]
        | _ => simp [Reads,raise]
    | _ => simp [Reads,raise]

theorem objs_of_norm {vs : List Json}
    (h : vs.map Json.norm = items.map fun item => (Json.obj item).norm) :
    ∃ received : List Members, vs = received.map .obj := by
  induction items generalizing vs with
  | nil => exact ⟨[],List.map_eq_nil_iff.mp h⟩
  | cons item items ih =>
    cases vs with
    | nil => cases h
    | cons v vs =>
      obtain ⟨hv,hvs⟩ := List.cons.inj h
      obtain ⟨ms,rfl⟩ := Json.norm_eq_obj hv
      obtain ⟨received,rfl⟩ := ih hvs
      exact ⟨ms::received,rfl⟩

/-- What is read from a value is read from each value of the same normal form. -/
theorem reads_of_norm {path : List JsString} {v w : Json} (hv : v.WF) (hw : w.WF)
    (h : v.norm = w.norm) (hread : Reads path w items) : ∃ received, Reads path v received ∧
      (∀ item ∈ received, (Json.obj item).WF) ∧
      received.map (fun item => (Json.obj item).norm) =
        items.map fun item => (Json.obj item).norm := by
  induction path generalizing v w with
  | nil =>
    obtain rfl : w = .arr (items.map .obj) := hread
    obtain ⟨vs,rfl⟩ := Json.norm_eq_arr h
    rw [Json.norm_arr,Json.norm_arr,Json.arr.injEq,List.map_map] at h
    obtain ⟨received,rfl⟩ := objs_of_norm h
    rw [List.map_map] at h
    exact ⟨received,rfl,fun item hi => Json.wf_arr.mp hv _ (List.mem_map_of_mem hi),h⟩
  | cons k path ih =>
    cases w with
    | obj ns =>
      obtain ⟨ms,rfl⟩ := Json.norm_eq_obj h
      have hk := (Json.norm_obj_eq_iff hv hw).mp h k
      rw [Reads] at hread
      simp only [Reads]
      cases hn : lookup ns k with
      | none =>
        rw [hn,Option.map_none,Option.map_eq_none_iff] at hk
        rw [hn] at hread
        obtain rfl : items = [] := hread
        rw [hk]
        exact ⟨[],rfl,by simp,rfl⟩
      | some w =>
        rw [hn,Option.map_some,Option.map_eq_some_iff] at hk
        obtain ⟨v,hm,he⟩ := hk
        rw [hn] at hread
        rw [hm]
        exact ih (Json.wf_of_lookup hv hm) (Json.wf_of_lookup hw hn) he hread
    | _ => exact absurd hread id

theorem hasId_iff {item : Members} :
    hasId id item = true ↔ lookup item (js "id") = some (.str id) := isStr_iff

theorem hasId_of_norm {ms ns : Members} (hm : (Json.obj ms).WF) (hn : (Json.obj ns).WF)
    (h : (Json.obj ms).norm = (Json.obj ns).norm) : hasId id ms = hasId id ns := by
  rw [Bool.eq_iff_iff,hasId_iff,hasId_iff]
  exact Json.lookup_str_of_norm hm hn h

/-- The first entry with an id is the first one among entries of the same normal forms. -/
theorem find_of_norm {received before after : List Members} {item : Members}
    (hwf : ∀ c ∈ received, (Json.obj c).WF) (hitems : ∀ b ∈ before++item::after, (Json.obj b).WF)
    (h : received.map (fun item => (Json.obj item).norm) =
      (before++item::after).map fun item => (Json.obj item).norm)
    (hfirst : ∀ b ∈ before, hasId id b = false) (hid : hasId id item = true) :
    ∃ found, received.find? (hasId id) = some found ∧ (Json.obj found).WF ∧
      (Json.obj found).norm = (Json.obj item).norm := by
  induction before generalizing received with
  | nil =>
    cases received with
    | nil => cases h
    | cons found rest =>
      have hf := hwf found List.mem_cons_self
      have he := (List.cons.inj h).1
      refine ⟨found,?_,hf,he⟩
      rw [List.find?_cons_of_pos]
      rw [hasId_of_norm hf (hitems item List.mem_cons_self) he]
      exact hid
  | cons b before ih =>
    cases received with
    | nil => cases h
    | cons c rest =>
      obtain ⟨he,hrest⟩ := List.cons.inj h
      have hc : hasId id c = false := by
        rw [hasId_of_norm (hwf c List.mem_cons_self) (hitems b List.mem_cons_self) he]
        exact hfirst b List.mem_cons_self
      rw [List.find?_cons_of_neg (by rw [hc]; exact Bool.false_ne_true)]
      exact ih (fun x hx => hwf x (List.mem_cons_of_mem c hx))
        (fun x hx => hitems x (List.mem_cons_of_mem b hx)) hrest
        fun x hx => hfirst x (List.mem_cons_of_mem b hx)

end Edits

abbrev InMemoryAttachmentStore := JsMap Bytes

namespace InMemoryAttachmentStore

def put (blobs : InMemoryAttachmentStore) (id : JsString) (ciphertext : Bytes) :
    Js InMemoryAttachmentStore :=
  if id = [] then raise (js "largeattachment: empty id")
  else if blobs.has id then raise (js "largeattachment: blob already stored for "++id)
  else .ok (blobs.set id ciphertext)

def get (blobs : InMemoryAttachmentStore) (id : JsString) : Option Bytes := JsMap.get blobs id

/-- The size, and whether there is a blob. -/
def stat (blobs : InMemoryAttachmentStore) (id : JsString) : ℕ × Bool :=
  match get blobs id with
  | none => (0,false)
  | some blob => (blob.length,true)

def del (blobs : InMemoryAttachmentStore) (id : JsString) : InMemoryAttachmentStore :=
  blobs.delete id

/-- A call that writes. -/
inductive Call
  | put (id : JsString) (ciphertext : Bytes)
  | del (id : JsString)

/-- A call that throws writes nothing. -/
def step (blobs : InMemoryAttachmentStore) : Call → InMemoryAttachmentStore
  | .put id ciphertext =>
    match put blobs id ciphertext with
    | .ok blobs => blobs
    | .error _ => blobs
  | .del id => del blobs id

def run (calls : List Call) : InMemoryAttachmentStore := calls.foldl step .empty

/-- What a call does to the blob of an id. -/
def blobCell (id : JsString) : Cell Call Bytes where
  create call :=
    match call with
    | .put key ciphertext => if key ≠ [] ∧ key = id then some ciphertext else none
    | .del _ => none
  next call blob :=
    match call with
    | .put .. => some blob
    | .del key => if key = id then none else some blob

variable {blobs : InMemoryAttachmentStore} {id : JsString} {blob : Bytes}

theorem put_eq_ok {blobs' : InMemoryAttachmentStore} :
    put blobs id blob = .ok blobs' ↔ id ≠ [] ∧ get blobs id = none ∧ blobs' = blobs.set id blob := by
  rw [put]
  split_ifs with hid hhas
  · simp [hid]
  · obtain ⟨b,hb⟩ := JsMap.has_iff.mp hhas
    have hsome : get blobs id = some b := hb
    simp [hsome]
  · have hnone : get blobs id = none := JsMap.has_eq_false.mp (Bool.not_eq_true _ ▸ hhas)
    simp [hid,hnone,eq_comm]

/-- A call acts on each blob by itself. -/
theorem get_step (blobs : InMemoryAttachmentStore) (call : Call) (id : JsString) :
    get (step blobs call) id = (blobCell id).step (get blobs id) call := by
  cases call with
  | put key ciphertext =>
    rw [step]
    cases hput : put blobs key ciphertext with
    | ok blobs' =>
      obtain ⟨hkey,hnone,rfl⟩ := put_eq_ok.mp hput
      dsimp only
      by_cases hid : key = id
      · subst hid
        rw [hnone]
        simp [get,Cell.step,blobCell,hkey]
      · have hsame : get (blobs.set key ciphertext) id = get blobs id :=
          JsMap.get_set_ne (Ne.symm hid)
        rw [hsame]
        cases get blobs id <;> simp [Cell.step,blobCell,hid]
    | error err =>
      dsimp only
      cases hget : get blobs id with
      | some blob => rfl
      | none =>
        have hno : ¬(key ≠ [] ∧ key = id) := by
          rintro ⟨hkey,rfl⟩
          rw [put_eq_ok.mpr ⟨hkey,hget,rfl⟩] at hput
          cases hput
        exact (if_neg hno).symm
  | del key =>
    rw [step]
    by_cases hid : key = id
    · subst hid
      have hnone : get (del blobs key) key = none := JsMap.get_delete_self
      rw [hnone]
      cases get blobs key <;> simp [Cell.step,blobCell]
    · have hsame : get (del blobs key) id = get blobs id := JsMap.get_delete_ne (Ne.symm hid)
      rw [hsame]
      cases get blobs id <;> simp [Cell.step,blobCell,hid]

theorem get_run (calls : List Call) (id : JsString) : get (run calls) id = (blobCell id).run calls :=
  CellStore.get_run ⟨get,step,blobCell,get_step⟩ rfl calls

/-- A blob stays until it is deleted. -/
theorem get_put {calls after : List Call} (hid : id ≠ []) (hnone : get (run calls) id = none)
    (hdel : Call.del id ∉ after) : get (run (calls++.put id blob::after)) id = some blob := by
  rw [get_run] at hnone ⊢
  refine Cell.run_eq_some.mpr ⟨calls,_,after,blob,rfl,hnone,by simp [blobCell,hid],?_⟩
  refine (Cell.keep_fixed fun call v w h => ?_).mpr ⟨rfl,fun call hcall => ?_⟩
  · cases call with
    | put key ciphertext => exact (Option.some.inj h).symm
    | del key =>
      dsimp only [blobCell] at h
      split_ifs at h
      exact (Option.some.inj h).symm
  · cases call with
    | put key ciphertext => rfl
    | del key =>
      refine if_neg ?_
      rintro rfl
      exact hdel hcall

end InMemoryAttachmentStore

section Transport
variable {C : Crypto} {P : Platform} {rt : Runtime} {a : EncryptAttachmentInput}
  {r : EncryptAttachmentResult} {found : Members} {ct text : Bytes}

theorem isInteger_dropNegZero (x : Number) : x.dropNegZero.isInteger = x.isInteger := by
  cases x with
  | fin neg i =>
    cases neg <;> by_cases h : i.val = 0 <;> simp [Number.dropNegZero,Number.isInteger,h]
  | _ => rfl

theorem requireSize_of_norm {v : Json} {n : ℕ} (hn : n < 2^53)
    (h : v.norm = (Json.num (.ofNat n)).norm) : Received.requireSize (some v) = .ok () := by
  have hfin := Number.isFinite_ofNat hn
  rw [Json.norm_number hfin] at h
  obtain rfl | ⟨x,rfl⟩ := Json.norm_eq_num (h.trans (Json.norm_number hfin).symm)
  · cases h
  by_cases hx : x.isFinite = true
  · rw [Json.norm_number hx,Json.num.injEq,Number.dropNegZero_ofNat] at h
    have hint : x.isInteger = true := by
      rw [← isInteger_dropNegZero,h,Number.isInteger_ofNat hn]
    have hlt : x.lt (.ofNat 0) = false := by
      rw [Number.lt_fin hx (Number.isFinite_ofNat (by norm_num)),← Number.toRat_dropNegZero,h,
        Number.toRat_ofNat hn,Number.toRat_ofNat (by norm_num)]
      simp
    rw [Received.requireSize,hint,hlt]
    rfl
  · rw [Json.norm,Json.reparse,if_neg hx] at h
    cases h

/-- An entry that has been through JSON is decrypted as the entry of the sender is. -/
theorem decryptAttachment_received (h : Encrypted C P rt a r) (hf : (Json.obj found).WF)
    (hnorm : (Json.obj found).norm = (Json.obj r.item.members).norm) (ct : Bytes) :
    Received.decryptAttachment C P rt a.suite a.kEnclosure found ct =
      decryptAttachment C P rt a.suite a.kEnclosure r.item ct := by
  have hk := (Json.norm_obj_eq_iff hf (wf_members r.item)).mp hnorm
  have htext {k s : JsString} (hs : lookup r.item.members k = some (.str s)) :
      lookup found k = lookup r.item.members k := by
    rw [hs]
    exact (Json.lookup_str_of_norm hf (wf_members r.item) hnorm).mpr hs
  obtain ⟨hid,hfilename,hmime,hsize,hurl,halgorithm,hnonce,hhash⟩ :=
    Received.lookup_members r.item
  have haad : Received.additionalData found = Received.additionalData r.item.members :=
    (Received.additionalData_eq_iff hf (wf_members r.item)).mpr fun k _ => hk k
  have hsame : Received.requireSize (lookup found (js "plaintext_size")) =
      Received.requireSize (lookup r.item.members (js "plaintext_size")) := by
    have he := hk (js "plaintext_size")
    rw [hsize,h.plaintext_size,Option.map_some,Option.map_eq_some_iff] at he
    obtain ⟨v,hv,he⟩ := he
    rw [hv,requireSize_of_norm a.plaintext.2 he,hsize,h.plaintext_size,
      requireSize_of_norm a.plaintext.2 rfl]
  rw [← Received.decryptAttachment_members]
  simp only [Received.decryptAttachment,Received.validateItem,Received.opening,haad,hsame,
    htext hid,htext hfilename,htext hmime,htext hurl,htext halgorithm,htext hnonce,htext hhash]

/-- The sender's entry opens the sender's ciphertext. -/
theorem Encrypted.opens (laws : AeadLaws C) (xlaws : XAeadLaws C) (h : Encrypted C P rt a r)
    (hsep : ¬(slash ∈ a.filename ∨ backslash ∈ a.filename)) :
    decryptAttachment C P rt a.suite a.kEnclosure r.item r.ciphertext = .ok a.plaintext.val := by
  obtain ⟨key,nonce,aad,hkey,hnonce,haad,hct⟩ := h.sealed
  obtain ⟨hn,hopen⟩ := aeadOpen_aeadSeal laws xlaws hct
  rw [decryptAttachment,if_neg h.kEnclosure,h.validateItem_eq hsep,ok_bind,
    if_neg (not_not.mpr h.algorithm),verifyCiphertextHash_self h.hash,if_neg (by decide),hnonce]
  simp only [Base64.decode_encode]
  rw [if_neg (not_not.mpr hn),hkey,ok_bind,haad,ok_bind,hopen]

theorem validateItem_separators {item : Item} (h : validateItem P rt item = .ok ()) :
    ¬(slash ∈ item.filename ∨ backslash ∈ item.filename) := by
  intro hsep
  rw [validateItem] at h
  split_ifs at h <;> cases h

theorem verify_of_decrypted {item : Item} {suite : Suite} {kEnclosure : Bytes}
    (h : decryptAttachment C P rt suite kEnclosure item ct = .ok text) :
    validateItem P rt item = .ok () ∧ verifyCiphertextHash C item ct = true := by
  unfold decryptAttachment at h
  by_cases hkey : kEnclosure.length = 0
  · rw [if_pos hkey] at h
    cases h
  rw [if_neg hkey] at h
  obtain ⟨u,hu,h⟩ := bind_eq_ok.mp h
  refine ⟨hu,?_⟩
  dsimp only at h
  split_ifs at h with halgorithm hhash
  · cases h
  · cases h
  · cases h
  · simpa using hhash

/-- A ciphertext that passes has the digest of the sender's. -/
theorem sha256_of_verify {item : Item} (hitem : item.ciphertext_hash = ciphertextHash C r.ciphertext)
    (h : verifyCiphertextHash C item ct = true) : C.sha256 ct = C.sha256 r.ciphertext := by
  have hcut : cutAt colon item.ciphertext_hash =
      some (hashAlgorithmSHA256,hex (C.sha256 r.ciphertext).val) :=
    cutAt_eq_some.mpr ⟨by rw [hitem,ciphertextHash,List.append_assoc]; rfl,by decide⟩
  rw [verifyCiphertextHash,if_neg (by rw [hitem]; exact List.cons_ne_nil _ _),hcut] at h
  dsimp only at h
  rw [if_neg (not_not.mpr rfl),hexToBytes_hex] at h
  exact (Subtype.ext (constantTimeEqual_iff.mp h)).symm

/-- What is decrypted is the file, unless another text has the digest of the ciphertext. -/
theorem decrypted_file (laws : AeadLaws C) (xlaws : XAeadLaws C) (h : Encrypted C P rt a r)
    (hok : decryptAttachment C P rt a.suite a.kEnclosure r.item ct = .ok text) :
    text = a.plaintext.val ∨ ct ≠ r.ciphertext ∧ C.sha256 ct = C.sha256 r.ciphertext := by
  obtain ⟨hvalid,hverify⟩ := verify_of_decrypted hok
  by_cases hct : ct = r.ciphertext
  · subst hct
    have hsep := validateItem_separators hvalid
    rw [h.filename.1] at hsep
    exact .inl (Except.ok.inj (hok.symm.trans (h.opens laws xlaws hsep)))
  · exact .inr ⟨hct,sha256_of_verify h.hash hverify⟩

end Transport

section Delivery
open Envelope Seal
variable {C : Crypto} {P : Platform} {rt : Runtime} {entropy : Entropy}
  {a : EncryptAttachmentInput} {r : EncryptAttachmentResult} {input : ComposeInput} {env : Env}
  {calls calls' : List SealCall} {start : Option Members} {edits : List Edit}
  {enclosure extensions : Members} {before after : List Members} {recipient : RecipientKey}
  {sk : Bytes}

/-- A recipient opens the enclosure, and unwraps its key. -/
theorem openEnclosure_compose (laws : Laws C) (hwf : input.enclosurePlaintext.WF)
    (hnd : (input.enclosureRecipients.map RecipientKey.keyId).Nodup)
    (h : compose C input calls = .ok (env,calls')) (hr : recipient ∈ input.enclosureRecipients)
    (hkeys : KeysMatch C input.suite sk recipient.publicKey) :
    openEnclosureForRecipient C ⟨input.suite,env,recipient.keyId,sk,recipient.publicKey⟩ =
        .ok input.enclosurePlaintext.norm.reparse ∧
      ∃ wrapped, lookup env.sealed.enclosureRecipients recipient.keyId = some wrapped ∧
        unwrap C input.suite sk recipient.publicKey wrapped = .ok input.kEnclosure := by
  obtain ⟨s,hs⟩ := compose_eq_ok.mp h
  obtain ⟨w,text,mid,mid',hwrap,hlookup⟩ := lookup_wrapAll hs.wrap_enclosure hnd hr
  have hcanon : s.enclosureCanonical = Canonical.canonicalBytes input.enclosurePlaintext :=
    (Except.ok.inj ((Canonical.marshal_eq hwf).symm.trans hs.marshal_enclosure)).symm
  have hseal := hs.seal_enclosure
  rw [hcanon] at hseal
  have hkey : input.kEnclosure.length = 32 :=
    laws.aead.key_length _ _ _ _ _ (recordedSeal_eq_ok.mp hseal).2.1
  have hres := hs.result
  subst hres
  exact ⟨openSlot_eq laws hwf hkeys hlookup hwrap hseal,text,hlookup,
    unwrap_wrapWithRandomness laws hkeys hkey hwrap⟩

/-- The extensions that a recipient has, and the sender's entry among them. -/
theorem found_of_opened (hextensions : edits.foldl Edit.apply start = some extensions)
    (hread : edits.foldl Edit.items (readFromExtensions start) =
      .ok (before++r.item.members::after))
    (hfirst : ∀ item ∈ before, hasId r.item.id item = false)
    (hin : lookup enclosure (js "extensions") = some (.obj extensions))
    (hwf : (Json.obj enclosure).WF) {opened : Json} (hopened : opened.WF)
    (hnorm : opened.norm = (Json.obj enclosure).norm) :
    ∃ ms received found, opened = .obj ms ∧ lookup ms (js "extensions") = some (.obj received) ∧
      findById (some received) r.item.id = .ok (some found) ∧ (Json.obj found).WF ∧
      (Json.obj found).norm = (Json.obj r.item.members).norm := by
  obtain ⟨ms,rfl⟩ := Json.norm_eq_obj hnorm
  obtain ⟨received,hreceived,he⟩ := Json.lookup_obj_of_norm hopened hwf hnorm hin
  have hm := Json.wf_of_lookup hopened hreceived
  have hn := Json.wf_of_lookup hwf hin
  rw [← read_edited,hextensions] at hread
  obtain ⟨items,hitems,hitemswf,hmap⟩ := reads_of_norm hm hn he (read_eq_ok.mp hread)
  obtain ⟨own,hown,hownwf,-⟩ := reads_of_norm hn hn rfl (read_eq_ok.mp hread)
  have hsame := (read_eq_ok.mpr hown).symm.trans hread
  obtain rfl := Except.ok.inj hsame
  obtain ⟨found,hfound,hf,hfnorm⟩ := find_of_norm hitemswf hownwf hmap hfirst
    (hasId_iff.mpr (Received.lookup_members r.item).1)
  refine ⟨ms,received,found,rfl,hreceived,?_,hf,hfnorm⟩
  rw [findById,read_eq_ok.mpr hitems,ok_bind,hfound]

/-- However the entries of an enclosure were edited, a recipient who opens the envelope finds the
first entry of each id; with the key that he unwraps and the blob that was stored first under the id
he has the file, if its name is no path.  No other blob gives him another file, unless it has the
digest of the sender's; and no other extension was touched. -/
theorem attachment_delivered (laws : Laws C) (xlaws : XAeadLaws C)
    (h : encryptAttachment C P rt entropy a = .ok r) (hkey : a.kEnclosure = input.kEnclosure)
    (hextensions : edits.foldl Edit.apply start = some extensions)
    (hread : edits.foldl Edit.items (readFromExtensions start) =
      .ok (before++r.item.members::after))
    (hfirst : ∀ item ∈ before, hasId r.item.id item = false)
    (henclosure : input.enclosurePlaintext = .obj enclosure)
    (hin : lookup enclosure (js "extensions") = some (.obj extensions))
    (hwf : (Json.obj enclosure).WF)
    (hnd : (input.enclosureRecipients.map RecipientKey.keyId).Nodup)
    (hcompose : compose C input calls = .ok (env,calls'))
    (hr : recipient ∈ input.enclosureRecipients)
    (hkeys : KeysMatch C input.suite sk recipient.publicKey) :
    (∀ k, k ≠ extensionKey → lookup extensions k = lookup (start.getD []) k) ∧
    ∃ opened received found wrapped key,
      openEnclosureForRecipient C ⟨input.suite,env,recipient.keyId,sk,recipient.publicKey⟩ =
        .ok (.obj opened) ∧
      lookup opened (js "extensions") = some (.obj received) ∧
      findById (some received) r.item.id = .ok (some found) ∧
      lookup env.sealed.enclosureRecipients recipient.keyId = some wrapped ∧
      unwrap C input.suite sk recipient.publicKey wrapped = .ok key ∧
      (slash ∉ a.filename → backslash ∉ a.filename → ∀ earlier later,
        InMemoryAttachmentStore.get (.run earlier) r.item.id = none → .del r.item.id ∉ later →
        ∃ blob, InMemoryAttachmentStore.get
            (.run (earlier++.put r.item.id r.ciphertext::later)) r.item.id = some blob ∧
          Received.decryptAttachment C P rt a.suite key found blob = .ok a.plaintext.val) ∧
      ∀ blob text, Received.decryptAttachment C P rt a.suite key found blob = .ok text →
        text = a.plaintext.val ∨ blob ≠ r.ciphertext ∧ C.sha256 blob = C.sha256 r.ciphertext := by
  have he := encryptAttachment_eq_ok h
  rw [← henclosure] at hwf
  obtain ⟨hopen,wrapped,hwrapped,hunwrap⟩ := openEnclosure_compose laws hwf hnd hcompose hr hkeys
  have hopenedwf : input.enclosurePlaintext.norm.reparse.WF :=
    JsonText.parse_wf (Canonical.parse_canonicalBytes hwf)
  rw [henclosure] at hwf hopen hopenedwf
  obtain ⟨opened,received,found,hopened,hreceived,hfound,hf,hnorm⟩ :=
    found_of_opened hextensions hread hfirst hin hwf hopenedwf
      (by rw [Json.norm_reparse,Json.norm_norm])
  rw [hopened] at hopen
  have hsame (ct : Bytes) := decryptAttachment_received he hf hnorm ct
  rw [hkey] at hsame
  refine ⟨fun k hk => ?_,opened,received,found,wrapped,_,hopen,hreceived,hfound,hwrapped,hunwrap,
    fun hslash hback earlier later hnone hdel => ?_,fun blob text hok => ?_⟩
  · rw [← lookup_edited hk start edits,hextensions,Option.getD_some]
  · obtain ⟨key,nonce,aad,hderived,-⟩ := he.sealed
    refine ⟨r.ciphertext,InMemoryAttachmentStore.get_put (deriveAttachmentKey_id hderived) hnone hdel,
      ?_⟩
    rw [hsame,← hkey]
    exact he.opens laws.aead xlaws (not_or.mpr ⟨hslash,hback⟩)
  · rw [hsame,← hkey] at hok
    exact decrypted_file laws.aead xlaws he hok

theorem encryptAttachment_fields (h : encryptAttachment C P rt entropy a = .ok r) :
    r.item.id = a.id.getD (newULID entropy.ms entropy.ulid) ∧ r.item.extensions = a.extensions := by
  unfold encryptAttachment at h
  by_cases hkey : a.kEnclosure.length = 0
  · rw [if_pos hkey] at h
    cases h
  rw [if_neg hkey] at h
  by_cases htexts : a.filename = [] ∨ a.mimeType = [] ∨ a.url = []
  · rw [if_pos htexts] at h
    cases h
  rw [if_neg htexts] at h
  obtain ⟨u,-,h⟩ := Semp.bind_eq_ok.mp h
  obtain ⟨nonce,-,h⟩ := Semp.bind_eq_ok.mp h
  obtain ⟨key,-,h⟩ := Semp.bind_eq_ok.mp h
  obtain ⟨aad,-,h⟩ := Semp.bind_eq_ok.mp h
  obtain ⟨ct,-,h⟩ := Semp.bind_eq_ok.mp h
  obtain rfl := Except.ok.inj h
  exact ⟨rfl,rfl⟩

theorem sampleText_length : [(1 : UInt8),2,3].length < 2^53 := by norm_num

def sampleFile : EncryptAttachmentInput where
  suite := .x25519
  kEnclosure := separateInput.kEnclosure
  plaintext := ⟨[1,2,3],sampleText_length⟩
  filename := js "a.txt"
  mimeType := js "text/plain"
  url := js "https://files.example.com/1"
  id := some (js "a")
  aeadNonce := some (List.replicate 12 0)
  extensions := none

theorem sampleFile_ok : ∃ r, encryptAttachment Sample.crypto samplePlatform Sample.runtime ⟨0,[],[]⟩
    sampleFile = .ok r ∧ r.item.id = js "a" ∧ (Json.obj r.item.members).Finite := by
  have hurl : validateUrl samplePlatform Sample.runtime sampleFile.url = .ok () := rfl
  have hid : sampleFile.id = some (js "a") := rfl
  have hnonce : sampleFile.aeadNonce = some (List.replicate 12 0) := rfl
  obtain ⟨r,hr,-⟩ := encryptAttachment_ok Sample.laws.aead sample_xlaws ⟨0,[],[]⟩
    (show (List.replicate 32 (12 : UInt8)).length ≠ 0 by decide) (show js "a.txt" ≠ [] by decide)
    (show js "text/plain" ≠ [] by decide) (show js "https://files.example.com/1" ≠ [] by decide)
    hurl hid (show js "a" ≠ [] by decide) hnonce rfl
  obtain ⟨hid,hextensions⟩ := encryptAttachment_fields hr
  refine ⟨r,hr,hid,?_⟩
  have hsize := Received.isFinite_plaintext_size (encryptAttachment_eq_ok hr)
  have hnone : r.item.extensions = none := hextensions
  rw [Item.members,hnone]
  simp [Json.Finite,hsize]

/-- An entry of another file. -/
def otherEntry : Members := [(js "id",.str (js "b"))]

def sampleExtensions (entry : Members) : Members :=
  setOnExtensions (some (setOnExtensions none [otherEntry])) [otherEntry,entry]

def sampleEnclosure (entry : Members) : Members :=
  [(js "extensions",.obj (sampleExtensions entry))]

def sampleMessage (entry : Members) : ComposeInput :=
  {separateInput with enclosurePlaintext := .obj (sampleEnclosure entry)}

theorem apply_append {items newItems : List Members} (h : readFromExtensions start = .ok items) :
    Edit.apply start (.append newItems) = some (setOnExtensions start (items++newItems)) := by
  rw [Edit.apply,appendToExtensions,h]
  rfl

theorem sample_edited (entry : Members) :
    [Edit.append [otherEntry],.append [entry]].foldl Edit.apply none =
      some (sampleExtensions entry) := by
  rw [List.foldl_cons,apply_append rfl,List.nil_append,List.foldl_cons,
    apply_append (read_set none [otherEntry])]
  rfl

theorem sample_hin (entry : Members) :
    lookup (sampleEnclosure entry) (js "extensions") = some (.obj (sampleExtensions entry)) :=
  if_pos rfl

theorem wf_set {items : List Members} (hstart : (Json.obj (start.getD [])).WF)
    (hitems : ∀ item ∈ items, (Json.obj item).WF) :
    (Json.obj (setOnExtensions start items)).WF := by
  cases items with
  | nil => exact Json.wf_filter hstart _
  | cons item items =>
    have hvs : (Json.arr ((item::items).map .obj)).WF :=
      Json.wf_arr.mpr (List.forall_mem_map.mpr hitems)
    refine Json.wf_assign hstart ?_ _
    exact Json.wf_of_keys [js "data"] rfl (by decide)
      (by simpa using Json.wf_of_keys [js "items"] rfl (by decide) (by simpa using hvs))

theorem finite_set {items : List Members} (hstart : (Json.obj (start.getD [])).Finite)
    (hitems : ∀ item ∈ items, (Json.obj item).Finite) (hne : items ≠ []) :
    (Json.obj (setOnExtensions start items)).Finite := by
  cases items with
  | nil => exact absurd rfl hne
  | cons item items =>
    have hvs : (Json.arr ((item::items).map .obj)).Finite :=
      Json.finite_arr.mpr (List.forall_mem_map.mpr hitems)
    refine Json.finite_assign hstart ?_ _
    simpa [extensionData,Json.finite_obj] using hvs

theorem sampleMessage_json {entry : Members} (hwf : (Json.obj entry).WF)
    (hfin : (Json.obj entry).Finite) : JsonInputs (sampleMessage entry) := by
  have hother : (Json.obj otherEntry).WF :=
    Json.wf_of_keys [js "id"] rfl (by decide) (by simp [otherEntry])
  have hotherFin : (Json.obj otherEntry).Finite := by simp [otherEntry,Json.Finite]
  have hfirst : (Json.obj (setOnExtensions none [otherEntry])).WF :=
    wf_set Json.wf_empty (by simpa using hother)
  have hfirstFin : (Json.obj (setOnExtensions none [otherEntry])).Finite :=
    finite_set (by simp [Json.Finite]) (by simpa using hotherFin) (List.cons_ne_nil _ _)
  have hset : (Json.obj (sampleExtensions entry)).WF :=
    wf_set hfirst (by simpa using ⟨hother,hwf⟩)
  have hsetFin : (Json.obj (sampleExtensions entry)).Finite :=
    finite_set hfirstFin (by simpa using ⟨hotherFin,hfin⟩) (List.cons_ne_nil _ _)
  have h : JsonInputs separateInput := sample_json _
  refine ⟨h.brief_wf,h.brief_finite,?_,?_,h.postmark_wf,h.seal_wf,h.extensions_wf⟩
  · exact Json.wf_of_keys [js "extensions"] rfl (by decide) (by simpa [sampleEnclosure] using hset)
  · exact Json.finite_obj.mpr (by simpa [sampleEnclosure] using hsetFin)

theorem sampleMessage_composable (entry : Members) :
    Composable Sample.crypto (sampleMessage entry) :=
  have h : Composable Sample.crypto separateInput := separateInput_uses.composable
  ⟨h.seed_length,h.kBrief_length,h.kEnclosure_length,h.briefNonce_length,h.enclosureNonce_length,
    h.brief,h.enclosure⟩

/-- The second entry of an enclosure, and a ciphertext that was stored and not touched since. -/
theorem attachment_delivered_sample : ∃ r found key blob,
    encryptAttachment Sample.crypto samplePlatform Sample.runtime ⟨0,[],[]⟩ sampleFile = .ok r ∧
    Received.decryptAttachment Sample.crypto samplePlatform Sample.runtime .x25519 key found blob =
      .ok [1,2,3] := by
  obtain ⟨r,hr,hid,hfin⟩ := sampleFile_ok
  have hjson := sampleMessage_json (wf_members r.item) hfin
  obtain ⟨env,calls,hcompose⟩ :=
    compose_ok Sample.laws hjson (sampleMessage_composable r.item.members) []
  have hfirst : ∀ item ∈ [otherEntry], hasId r.item.id item = false := by
    rw [hid]
    decide
  have hkeys : KeysMatch Sample.crypto (sampleMessage r.item.members).suite sampleKey
    sampleRecipient.publicKey := rfl
  have hread : [Edit.append [otherEntry],.append [r.item.members]].foldl Edit.items
    (readFromExtensions none) = .ok ([otherEntry]++r.item.members::[]) := rfl
  have hin := sample_hin r.item.members
  have hkey : sampleFile.kEnclosure = (sampleMessage r.item.members).kEnclosure := rfl
  have henclosure : (sampleMessage r.item.members).enclosurePlaintext =
    .obj (sampleEnclosure r.item.members) := rfl
  have hnd : ((sampleMessage r.item.members).enclosureRecipients.map RecipientKey.keyId).Nodup :=
    List.nodup_singleton _
  have hto : sampleRecipient ∈ (sampleMessage r.item.members).enclosureRecipients :=
    List.mem_singleton.mpr rfl
  obtain ⟨-,opened,received,found,wrapped,key,-,-,-,-,-,hdelivered,-⟩ := attachment_delivered
    Sample.laws sample_xlaws hr hkey (sample_edited r.item.members) hread hfirst henclosure hin
    hjson.enclosure_wf hnd hcompose hto hkeys
  have hslash : slash ∉ sampleFile.filename := show slash ∉ js "a.txt" by decide
  have hback : backslash ∉ sampleFile.filename := show backslash ∉ js "a.txt" by decide
  obtain ⟨blob,-,hblob⟩ := hdelivered hslash hback [] [] rfl List.not_mem_nil
  exact ⟨r,found,key,blob,hr,hblob⟩

end Delivery
end LargeAttachment
end Semp
