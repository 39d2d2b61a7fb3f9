import Semp.LargeAttachment
import Semp.TransparencyLog

/-! The entry of an attachment as a receiver gets it from JSON: any object.  What it says of the
file is bound to the ciphertext through the associated data; its extensions are not. -/
namespace Semp
namespace LargeAttachment
namespace Received
open Handshake (require require_eq_ok)
open TransparencyLog (isText)

/-- A field that validation has found to be a string. -/
def textOf : Option Json → JsString
  | some (.str s) => s
  | _ => []

def requireSize (v : Option Json) : Js Unit :=
  match v with
  | some (.num x) =>
    if !x.isInteger || x.lt (.ofNat 0) then
      raise (js "largeattachment: plaintext_size "++NumberText.toText x++js " MUST be >= 0")
    else .ok ()
  | _ => do
    let text ← templateText v
    raise (js "largeattachment: plaintext_size "++text++js " MUST be >= 0")

/-- The comparison of `verifyCiphertextHash`, for a hash that is a string. -/
def hashMatches (C : Crypto) (hash : JsString) (ciphertext : Bytes) : Bool :=
  if hash = [] then false
  else
    match cutAt colon hash with
    | none => false
    | some (algo,hex) =>
      if algo ≠ hashAlgorithmSHA256 then false
      else
        match hexToBytes hex with
        | .error _ => false
        | .ok want => constantTimeEqual want (C.sha256 ciphertext).val

/-- The inputs of the AEAD other than the ciphertext. -/
structure Opening where
  key : Bytes
  nonce : Bytes
  aad : Bytes

section Code
variable (C : Crypto) (P : Platform) (rt : Runtime)

/-- `new URL(raw)` converts what is no string. -/
def validateUrl (raw : Option Json) : Js Unit :=
  match raw with
  | some (.str s) => LargeAttachment.validateUrl P rt s
  | _ =>
    match templateText raw with
    | .error err => raise (js "largeattachment: parse url: "++Handshake.thrownText rt err)
    -- The text of an empty array is no URL.
    | .ok [] => raise (js "largeattachment: parse url: "++rt.errorMessage .typeError)
    | .ok s => LargeAttachment.validateUrl P rt s

def validateItem (item : Members) : Js Unit := do
  require (isText (lookup item (js "id")) = true) (js "largeattachment: item missing id")
  require (isText (lookup item (js "filename")) = true)
    (js "largeattachment: item missing filename")
  let filename := textOf (lookup item (js "filename"))
  require (¬(slash ∈ filename ∨ backslash ∈ filename))
    (js "largeattachment: filename "++JsonText.stringify (.str filename)++
      js " contains path separator")
  require (isText (lookup item (js "mime_type")) = true)
    (js "largeattachment: item missing mime_type")
  requireSize (lookup item (js "plaintext_size"))
  validateUrl P rt (lookup item (js "url"))
  require (isText (lookup item (js "ciphertext_hash")) = true)
    (js "largeattachment: item missing ciphertext_hash")
  require (isText (lookup item (js "aead_algorithm")) = true)
    (js "largeattachment: item missing aead_algorithm")
  require (isText (lookup item (js "aead_nonce")) = true)
    (js "largeattachment: item missing aead_nonce")

/-- `{ ...item }` with the hash and the nonce blank and no extensions. -/
def blanked (item : Members) : Members :=
  (assign (assign item (js "ciphertext_hash") (.str [])) (js "aead_nonce") (.str [])).filter
    fun m => m.1 ≠ js "extensions"

def additionalData (item : Members) : Js Bytes := Canonical.marshal (.obj (blanked item))

def opening (kEnclosure : Bytes) (item : Members) : Js Opening := do
  let kAttachment ← deriveAttachmentKey P kEnclosure (textOf (lookup item (js "id"))) 32
  let aad ← additionalData item
  .ok ⟨kAttachment,Base64.decode (textOf (lookup item (js "aead_nonce"))),aad⟩

def decryptAttachment (suite : Suite) (kEnclosure : Bytes) (item : Members) (ciphertext : Bytes) :
    Js Bytes :=
  if kEnclosure.length = 0 then raise (js "largeattachment: empty K_enclosure")
  else do
    validateItem P rt item
    let expectedAlgo := aeadAlgorithmFor suite
    let algorithm := textOf (lookup item (js "aead_algorithm"))
    if algorithm ≠ algorithmName expectedAlgo then
      raise (js "largeattachment: item aead_algorithm "++JsonText.stringify (.str algorithm)++
        js " does not match suite "++JsonText.stringify (.str suite.name)++js " (expected "++
        algorithmName expectedAlgo++js ")")
    else if !hashMatches C (textOf (lookup item (js "ciphertext_hash"))) ciphertext then
      -- `CiphertextHashMismatchError`
      raise (js "largeattachment: ciphertext hash mismatch")
    else
      let nonce := Base64.decode (textOf (lookup item (js "aead_nonce")))
      if nonce.length ≠ nonceLengthFor expectedAlgo then
        raise (js "largeattachment: aead_nonce length "++natText nonce.length++js ", want "++
          natText (nonceLengthFor expectedAlgo)++js " for "++algorithmName expectedAlgo)
      else do
        let o ← opening P kEnclosure item
        aeadOpen C expectedAlgo o.key o.nonce ciphertext o.aad

end Code

section Typed
variable {C : Crypto} {P : Platform} {rt : Runtime}

/-- What the object of an entry has under the names of its fields. -/
theorem lookup_members (item : Item) :
    lookup item.members (js "id") = some (.str item.id) ∧
    lookup item.members (js "filename") = some (.str item.filename) ∧
    lookup item.members (js "mime_type") = some (.str item.mime_type) ∧
    lookup item.members (js "plaintext_size") = some (.num item.plaintext_size) ∧
    lookup item.members (js "url") = some (.str item.url) ∧
    lookup item.members (js "aead_algorithm") = some (.str item.aead_algorithm) ∧
    lookup item.members (js "aead_nonce") = some (.str item.aead_nonce) ∧
    lookup item.members (js "ciphertext_hash") = some (.str item.ciphertext_hash) :=
  ⟨rfl,rfl,rfl,rfl,rfl,rfl,rfl,rfl⟩

theorem isText_str {s : JsString} : isText (some (.str s)) = true ↔ ¬s = [] := by
  cases s <;> simp [isText]

theorem require_bind {α : Type} (p : Prop) [Decidable p] (message : JsString) (f : Unit → Js α) :
    (require p message >>= f) = if p then f () else raise message := by
  rw [require]
  split_ifs <;> rfl

theorem ite_raise_bind {α : Type} (p : Prop) [Decidable p] (message : JsString) (f : Unit → Js α) :
    ((if p then raise message else .ok ()) >>= f) = if p then raise message else f () := by
  split_ifs <;> rfl

theorem validateItem_members (item : Item) :
    validateItem P rt item.members = LargeAttachment.validateItem P rt item := by
  obtain ⟨hid,hfilename,hmime,hsize,hurl,halgorithm,hnonce,hhash⟩ := lookup_members item
  rw [validateItem,hid,hfilename,hmime,hsize,hurl,halgorithm,hnonce,hhash]
  dsimp only [textOf,requireSize,validateUrl]
  simp only [require_bind,isText_str,ite_raise_bind,ite_not]
  simp only [require,ite_not]
  rw [LargeAttachment.validateItem]

theorem blanked_members (item : Item) : blanked item.members =
    Item.members {item with ciphertext_hash := [],aead_nonce := [],extensions := none} := by
  obtain ⟨id,filename,mime,size,url,algo,nonce,hash,_ | v⟩ := item <;> rfl

/-- An entry of the sender is decrypted as its object is. -/
theorem decryptAttachment_members (suite : Suite) (kEnclosure : Bytes) (item : Item)
    (ciphertext : Bytes) : decryptAttachment C P rt suite kEnclosure item.members ciphertext =
      LargeAttachment.decryptAttachment C P rt suite kEnclosure item ciphertext := by
  obtain ⟨hid,-,-,-,-,halgorithm,hnonce,hhash⟩ := lookup_members item
  rw [decryptAttachment,validateItem_members,halgorithm,hhash,hnonce,opening,hid,hnonce,
    additionalData,blanked_members]
  simp only [bind_assoc,ok_bind,textOf]
  rfl

end Typed

/-- The names that the associated data leaves open. -/
def openFields : List JsString := [js "ciphertext_hash",js "aead_nonce",js "extensions"]

/-- The names of an entry. -/
def itemFields : List JsString :=
  [js "id",js "filename",js "mime_type",js "plaintext_size",js "url",js "aead_algorithm"]++
    openFields

/-- The object says of the file what the entry says, and nothing that an entry does not know. -/
structure Describes (item : Item) (ms : Members) : Prop where
  id : lookup ms (js "id") = some (.str item.id)
  filename : lookup ms (js "filename") = some (.str item.filename)
  mime_type : lookup ms (js "mime_type") = some (.str item.mime_type)
  plaintext_size : ∃ x, lookup ms (js "plaintext_size") = some (.num x) ∧
    Number.eq x item.plaintext_size = true
  url : lookup ms (js "url") = some (.str item.url)
  aead_algorithm : lookup ms (js "aead_algorithm") = some (.str item.aead_algorithm)
  known : ∀ k ∈ keys ms, k ∈ itemFields

section Binding
variable {P : Platform} {ms ns : Members} {k : JsString}

theorem wf_blanked (h : (Json.obj ms).WF) : (Json.obj (blanked ms)).WF :=
  Json.wf_filter (Json.wf_assign (Json.wf_assign h (Json.wf_str _) _) (Json.wf_str _) _) _

theorem lookup_blanked (ms : Members) (k : JsString) : lookup (blanked ms) k =
    if k = js "extensions" then none
    else if k = js "aead_nonce" ∨ k = js "ciphertext_hash" then some (.str [])
    else lookup ms k := by
  by_cases hext : k = js "extensions"
  · rw [if_pos hext,lookup_eq_none,mem_keys]
    rintro ⟨v,hv⟩
    exact of_decide_eq_true (List.mem_filter.mp hv).2 hext
  rw [if_neg hext,blanked,lookup_filter_ne _ hext]
  by_cases hnonce : k = js "aead_nonce"
  · rw [if_pos (.inl hnonce),hnonce,lookup_assign_self]
  rw [lookup_assign_ne _ hnonce]
  by_cases hhash : k = js "ciphertext_hash"
  · rw [if_pos (.inr hhash),hhash,lookup_assign_self]
  · rw [if_neg (by simp [hnonce,hhash]),lookup_assign_ne _ hhash]

theorem additionalData_eq (h : (Json.obj ms).WF) :
    additionalData ms = .ok (Canonical.canonicalBytes (.obj (blanked ms))) :=
  Canonical.marshal_eq (wf_blanked h)

/-- The associated data of two objects agree exactly when what they bind does. -/
theorem additionalData_eq_iff (hm : (Json.obj ms).WF) (hn : (Json.obj ns).WF) :
    additionalData ms = additionalData ns ↔
      ∀ k, k ∉ openFields → (lookup ms k).map Json.norm = (lookup ns k).map Json.norm := by
  rw [additionalData_eq hm,additionalData_eq hn,Except.ok.injEq,
    Canonical.canonicalBytes_inj (wf_blanked hm) (wf_blanked hn),
    Json.norm_obj_eq_iff (wf_blanked hm) (wf_blanked hn)]
  refine forall_congr' fun k => ?_
  rw [lookup_blanked,lookup_blanked,openFields]
  split_ifs with hext hblank
  · simp [hext]
  · obtain rfl | rfl := hblank <;> simp
  · simp [hext,not_or.mp hblank]

theorem keys_members (item : Item) : ∀ k ∈ keys item.members, k ∈ itemFields := by
  have hnames : ∀ k ∈ [js "id",js "filename",js "mime_type",js "plaintext_size",js "url",
      js "aead_algorithm",js "aead_nonce",js "ciphertext_hash"]++[js "extensions"],
      k ∈ itemFields := by
    decide
  obtain ⟨id,filename,mime,size,url,algo,nonce,hash,_ | v⟩ := item
  · exact fun k hk => hnames k (List.mem_append_left _ hk)
  · exact hnames

/-- What the associated data of an entry of the sender says. -/
theorem describes_of_additionalData {item : Item} (hsize : item.plaintext_size.isFinite = true)
    (hm : (Json.obj ms).WF) (h : additionalData ms = additionalData item.members) :
    Describes item ms := by
  obtain ⟨hid,hfilename,hmime,hnum,hurl,halgorithm,-,-⟩ := lookup_members item
  have hk := (additionalData_eq_iff hm (wf_members item)).mp h
  have htext {k s : JsString} (hopen : k ∉ openFields)
      (hs : lookup item.members k = some (.str s)) : lookup ms k = some (.str s) := by
    have hnorm := hk k hopen
    rw [hs,Option.map_some,Option.map_eq_some_iff] at hnorm
    obtain ⟨v,hv,he⟩ := hnorm
    rw [hv,Json.norm_eq_str.mp he]
  refine ⟨htext (by decide) hid,htext (by decide) hfilename,htext (by decide) hmime,?_,
    htext (by decide) hurl,htext (by decide) halgorithm,fun k hmem => ?_⟩
  · have hnorm := hk (js "plaintext_size") (by decide)
    rw [hnum,Option.map_some,Option.map_eq_some_iff] at hnorm
    obtain ⟨v,hv,he⟩ := hnorm
    obtain rfl | ⟨x,rfl⟩ := Json.norm_eq_num he
    · rw [Json.norm_number hsize] at he
      cases he
    · refine ⟨x,hv,?_⟩
      by_cases hx : x.isFinite = true
      · rw [Json.norm_number hx,Json.norm_number hsize,Json.num.injEq,
          Number.dropNegZero_eq_iff hx hsize] at he
        rw [Number.eq_fin hx hsize,decide_eq_true he]
      · rw [Json.norm_number hsize,Json.norm,Json.reparse,if_neg hx] at he
        cases he
  · by_cases hopen : k ∈ openFields
    · exact List.mem_append_right _ hopen
    · have hnorm := hk k hopen
      obtain ⟨v,hv⟩ := mem_keys.mp hmem
      rw [(lookup_eq_some (Json.wf_obj.mp hm).1).mpr hv,Option.map_some,eq_comm,
        Option.map_eq_some_iff] at hnorm
      obtain ⟨w,hw,-⟩ := hnorm
      exact keys_members item k (mem_keys.mpr ⟨w,mem_of_lookup hw⟩)

theorem isFinite_plaintext_size {input : EncryptAttachmentInput} {C : Crypto} {rt : Runtime}
    {r : EncryptAttachmentResult} (h : Encrypted C P rt input r) :
    r.item.plaintext_size.isFinite = true := by
  rw [h.plaintext_size]
  exact Number.isFinite_ofNat input.plaintext.2

/-- The object of the entry itself describes the file so. -/
theorem describes_self {input : EncryptAttachmentInput} {C : Crypto} {rt : Runtime}
    {r : EncryptAttachmentResult} (h : Encrypted C P rt input r) :
    Describes r.item r.item.members :=
  describes_of_additionalData (isFinite_plaintext_size h) (wf_members _) rfl

end Binding

section Decrypt
variable {C : Crypto} {P : Platform} {rt : Runtime} {suite : Suite} {kEnclosure ct text : Bytes}
  {ms ns : Members}

theorem opening_aad {o : Opening} (h : opening P kEnclosure ms = .ok o) :
    additionalData ms = .ok o.aad := by
  obtain ⟨key,-,h⟩ := bind_eq_ok.mp h
  obtain ⟨aad,haad,h⟩ := bind_eq_ok.mp h
  obtain rfl := Except.ok.inj h
  exact haad

/-- What is decrypted was opened by the library. -/
theorem decryptAttachment_eq_ok (h : decryptAttachment C P rt suite kEnclosure ms ct = .ok text) :
    ∃ o, opening P kEnclosure ms = .ok o ∧
      aeadOpen C (aeadAlgorithmFor suite) o.key o.nonce ct o.aad = .ok text := by
  unfold decryptAttachment at h
  by_cases hkey : kEnclosure.length = 0
  · rw [if_pos hkey] at h
    cases h
  rw [if_neg hkey] at h
  obtain ⟨u,-,h⟩ := bind_eq_ok.mp h
  dsimp only at h
  split_ifs at h with halgorithm hhash hnonce
  · cases h
  · cases h
  · cases h
  · exact bind_eq_ok.mp h

/-- Two objects that differ in their extensions only are decrypted alike. -/
theorem decryptAttachment_congr (hm : (Json.obj ms).WF) (hn : (Json.obj ns).WF)
    (h : ∀ k, k ≠ js "extensions" → lookup ms k = lookup ns k) :
    decryptAttachment C P rt suite kEnclosure ms ct =
      decryptAttachment C P rt suite kEnclosure ns ct := by
  have haad : additionalData ms = additionalData ns := by
    refine (additionalData_eq_iff hm hn).mpr fun k hk => ?_
    rw [h k fun hext => hk (by rw [hext]; decide)]
  simp only [decryptAttachment,validateItem,opening,haad,h (js "id") (by decide),
    h (js "filename") (by decide),h (js "mime_type") (by decide),
    h (js "plaintext_size") (by decide),h (js "url") (by decide),
    h (js "ciphertext_hash") (by decide),h (js "aead_algorithm") (by decide),
    h (js "aead_nonce") (by decide)]

end Decrypt

/-- With these inputs the library opens the ciphertext only if the associated data is what it
was sealed with. -/
def Authenticates (C : Crypto) (algo : AEADAlgorithm) (ciphertext aad : Bytes) (o : Opening) :
    Prop := ∀ text, aeadOpen C algo o.key o.nonce ciphertext o.aad = .ok text → o.aad = aad

/-- No object decrypts an attachment unless it describes the file as its entry does, and the
extensions of an object change nothing. -/
theorem metadata_bound {C : Crypto} {P : Platform} {rt : Runtime} {entropy : Entropy}
    {input : EncryptAttachmentInput} {r : EncryptAttachmentResult}
    (h : encryptAttachment C P rt entropy input = .ok r) :
    (∀ suite kEnclosure ms, (Json.obj ms).WF →
      (∀ o aad, opening P kEnclosure ms = .ok o → LargeAttachment.additionalData r.item = .ok aad →
        Authenticates C (aeadAlgorithmFor suite) r.ciphertext aad o) →
      ¬Describes r.item ms →
      ∀ text, decryptAttachment C P rt suite kEnclosure ms r.ciphertext ≠ .ok text) ∧
    ∀ suite kEnclosure ms ns ciphertext, (Json.obj ms).WF → (Json.obj ns).WF →
      (∀ k, k ≠ js "extensions" → lookup ms k = lookup ns k) →
      decryptAttachment C P rt suite kEnclosure ms ciphertext =
        decryptAttachment C P rt suite kEnclosure ns ciphertext := by
  have hr := encryptAttachment_eq_ok h
  refine ⟨fun suite kEnclosure ms hm hauth hother text hok => hother ?_,
    fun suite kEnclosure ms ns ciphertext => decryptAttachment_congr⟩
  obtain ⟨key,nonce,aad,-,-,haad,-⟩ := hr.sealed
  obtain ⟨o,ho,hopen⟩ := decryptAttachment_eq_ok hok
  refine describes_of_additionalData (isFinite_plaintext_size hr) hm ?_
  rw [opening_aad ho,hauth o aad ho haad text hopen,← haad,additionalData,blanked_members]
  rfl

/-! An AEAD whose ciphertext carries the associated data, after its length in ones. -/
def sealWith (key nonce aad text : Bytes) : Js Bytes :=
  if key.length = 32 ∧ nonce.length = 24 then
    .ok (List.replicate aad.length 1++0::(aad++text))
  else raise (js "invalid key or nonce")

def openWith (key nonce aad ciphertext : Bytes) : Js Bytes :=
  let n := (ciphertext.takeWhile (· = 1)).length
  let rest := ciphertext.drop (n+1)
  if key.length = 32 ∧ nonce.length = 24 ∧ rest.take n = aad then .ok (rest.drop n)
  else raise (js "invalid tag")

def sampleCrypto : Crypto :=
  {Sample.crypto with xchachaEncrypt := sealWith,xchachaDecrypt := openWith}

section Sample
variable {key nonce aad text : Bytes}

theorem openWith_eq (key' nonce' aad' : Bytes) :
    openWith key' nonce' aad' (List.replicate aad.length 1++0::(aad++text)) =
      if key'.length = 32 ∧ nonce'.length = 24 ∧ aad = aad' then .ok text
      else raise (js "invalid tag") := by
  have hn : ((List.replicate aad.length (1 : UInt8)++0::(aad++text)).takeWhile (· = 1)).length =
      aad.length := by
    rw [List.takeWhile_append_of_pos (by simp),List.takeWhile_cons_of_neg (by decide)]
    simp
  have hdrop : (List.replicate aad.length (1 : UInt8)++0::(aad++text)).drop (aad.length+1) =
      aad++text := by
    rw [← List.drop_drop,List.drop_left' (List.length_replicate ..)]
    rfl
  rw [openWith]
  simp only [hn,hdrop,List.take_left,List.drop_left]

theorem sample_bound_xlaws : XAeadLaws sampleCrypto where
  key_length key nonce aad text ct h := by
    change sealWith key nonce aad text = _ at h
    rw [sealWith] at h
    split_ifs at h with hk
    · exact hk.1
    · cases h
  decrypt_encrypt key nonce aad text hk hn := by
    refine ⟨_,if_pos ⟨hk,hn⟩,?_⟩
    change openWith key nonce aad _ = _
    rw [openWith_eq,if_pos ⟨hk,hn,rfl⟩]

end Sample

theorem sample_authenticates {key nonce aad text ciphertext : Bytes}
    (h : aeadSeal sampleCrypto .xchacha20poly1305 key nonce text aad = .ok ciphertext)
    (o : Opening) : Authenticates sampleCrypto .xchacha20poly1305 ciphertext aad o := by
  intro plain hopen
  rw [aeadSeal] at h
  rw [aeadOpen] at hopen
  split_ifs at h hopen
  · cases h
  · cases h
  · cases hopen
  · change sealWith key nonce aad text = _ at h
    rw [sealWith] at h
    split_ifs at h
    · obtain rfl := Except.ok.inj h
      change openWith o.key o.nonce o.aad _ = _ at hopen
      rw [openWith_eq] at hopen
      split_ifs at hopen with hok
      · exact hok.2.2.symm
      · cases hopen
    · cases h

theorem sample_bound_aead : AeadLaws sampleCrypto where
  key_length := Sample.laws.aead.key_length
  decrypt_encrypt := Sample.laws.aead.decrypt_encrypt

theorem sampleAttachment_bound : ∃ r, encryptAttachment sampleCrypto samplePlatform Sample.runtime
    ⟨0,[],[]⟩ (sampleAttachment (js "a.txt")) = .ok r ∧ r.item.filename = js "a.txt" :=
  encryptAttachment_ok sample_bound_aead sample_bound_xlaws ⟨0,[],[]⟩
    (show (List.replicate 32 (1 : UInt8)).length ≠ 0 by decide) (show js "a.txt" ≠ [] by decide)
    (show js "text/plain" ≠ [] by decide) (show js "https://files.example.com/1" ≠ [] by decide)
    rfl rfl (show js "a" ≠ [] by decide) rfl rfl

/-- The object of a sample entry under another file name is refused, and with extensions it is
decrypted as without. -/
theorem metadata_bound_sample : ∃ r,
    encryptAttachment sampleCrypto samplePlatform Sample.runtime ⟨0,[],[]⟩
      (sampleAttachment (js "a.txt")) = .ok r ∧
    (∀ text, decryptAttachment sampleCrypto samplePlatform Sample.runtime .pq
      (List.replicate 32 1) (Item.members {r.item with filename := js "b.txt"}) r.ciphertext ≠
        .ok text) ∧
    decryptAttachment sampleCrypto samplePlatform Sample.runtime .pq (List.replicate 32 1)
        (assign r.item.members (js "extensions") .null) r.ciphertext =
      decryptAttachment sampleCrypto samplePlatform Sample.runtime .pq (List.replicate 32 1)
        r.item.members r.ciphertext := by
  obtain ⟨r,hr,hname⟩ := sampleAttachment_bound
  refine ⟨r,hr,?_,(metadata_bound hr).2 _ _ _ _ _ (Json.wf_assign (wf_members _) Json.wf_null _)
    (wf_members _) fun k hk => lookup_assign_ne _ hk⟩
  refine (metadata_bound hr).1 .pq _ _ (wf_members _) (fun o aad _ haad => ?_) fun h => ?_
  · obtain ⟨key,nonce,aad',-,-,haad',hseal⟩ := (encryptAttachment_eq_ok hr).sealed
    obtain rfl := Except.ok.inj (haad.symm.trans haad')
    exact sample_authenticates hseal o
  · have hfilename := h.filename
    rw [hname,(lookup_members _).2.1,Option.some.injEq,Json.str.injEq] at hfilename
    exact absurd (show js "b.txt" = js "a.txt" from hfilename) (by decide)

end Received
end LargeAttachment
end Semp
