import Mathlib.Tactic.Common

/-! Methods of an object that may throw.  What a method wrote before it threw stays
written, so a call gives a result or an error and, either way, the fields after it. -/
namespace Semp

abbrev Method (ε σ : Type) := ExceptT ε (StateM σ)

namespace Method
variable {ε σ α β : Type}

def call (x : Method ε σ α) (s : σ) : Except ε α × σ := (ExceptT.run x).run s

@[simp] theorem call_pure (a : α) (s : σ) : (pure a : Method ε σ α).call s = (.ok a,s) := rfl

@[simp] theorem call_throw (e : ε) (s : σ) : (throw e : Method ε σ α).call s = (.error e,s) := rfl

@[simp] theorem call_get (s : σ) : (get : Method ε σ σ).call s = (.ok s,s) := rfl

@[simp] theorem call_modify (f : σ → σ) (s : σ) :
    (modify f : Method ε σ Unit).call s = (.ok (),f s) := rfl

@[simp] theorem call_set (t s : σ) : (set t : Method ε σ PUnit).call s = (.ok ⟨⟩,t) := rfl

@[simp] theorem call_lift (x : Except ε α) (s : σ) :
    (liftM x : Method ε σ α).call s = (x,s) := rfl

theorem call_bind (x : Method ε σ α) (f : α → Method ε σ β) (s : σ) :
    (x >>= f).call s = match x.call s with
      | (.ok a,mid) => (f a).call mid
      | (.error e,mid) => (.error e,mid) := by
  change (ExceptT.run (x >>= f)).run s = _
  simp only [ExceptT.run_bind,StateT.run_bind,call]
  rcases h : (ExceptT.run x).run s with ⟨_ | a,mid⟩ <;> rfl

/-- What a caller makes of the result. -/
@[simp] theorem call_map (f : α → β) (x : Method ε σ α) (s : σ) :
    (f <$> x).call s = ((x.call s).1.map f,(x.call s).2) := by
  rw [map_eq_pure_bind,call_bind]
  rcases x.call s with ⟨_ | a,mid⟩ <;> rfl

theorem bind_eq_ok {x : Method ε σ α} {f : α → Method ε σ β} {s s' : σ} {b : β} :
    (x >>= f).call s = (.ok b,s') ↔
      ∃ a mid, x.call s = (.ok a,mid) ∧ (f a).call mid = (.ok b,s') := by
  rw [call_bind]
  rcases x.call s with ⟨_ | a,mid⟩ <;> simp

/-- Going on after a call that returned. -/
theorem bind_of_ok {x : Method ε σ α} {s mid : σ} {a : α} (h : x.call s = (.ok a,mid))
    (f : α → Method ε σ β) : (x >>= f).call s = (f a).call mid := by
  rw [call_bind,h]

theorem lift_eq_ok {x : Except ε α} {s s' : σ} {a : α} :
    (liftM x : Method ε σ α).call s = (.ok a,s') ↔ x = .ok a ∧ s' = s := by
  rw [call_lift,Prod.mk.injEq,eq_comm (a := s)]

/-- Reading the fields first: what follows may depend on them. -/
@[simp] theorem get_bind (f : σ → Method ε σ β) (s : σ) :
    (get >>= f).call s = (f s).call s := by
  rw [call_bind,call_get]

@[simp] theorem modify_bind (g : σ → σ) (f : Unit → Method ε σ β) (s : σ) :
    (modify g >>= f).call s = (f ()).call (g s) := by
  rw [call_bind,call_modify]

/-- A handler sees the fields as the error left them. -/
theorem call_tryCatch (x : Method ε σ α) (handle : ε → Method ε σ α) (s : σ) :
    (tryCatch x handle).call s = match x.call s with
      | (.ok a,mid) => (.ok a,mid)
      | (.error e,mid) => (handle e).call mid := by
  simp only [tryCatch,tryCatchThe,MonadExceptOf.tryCatch,ExceptT.tryCatch,call,ExceptT.run,
    ExceptT.mk,StateT.run,bind,StateT.bind]
  rcases h : x s with ⟨_ | a,mid⟩ <;> rfl

/-- `try { x } finally { cleanup }`, for a cleanup that does not throw. -/
def ensure (x : Method ε σ α) (cleanup : σ → σ) : Method ε σ α :=
  ExceptT.mk fun s => ((x.call s).1,cleanup (x.call s).2)

@[simp] theorem call_ensure (x : Method ε σ α) (cleanup : σ → σ) (s : σ) :
    (x.ensure cleanup).call s = ((x.call s).1,cleanup (x.call s).2) := rfl

/-- A step that reads and writes no field. -/
theorem lift_bind_eq_ok {x : Except ε α} {f : α → Method ε σ β} {s s' : σ} {b : β} :
    (liftM x >>= f).call s = (.ok b,s') ↔ ∃ a, x = .ok a ∧ (f a).call s = (.ok b,s') := by
  rw [call_bind,call_lift]
  cases x <;> simp

/-- The result of a call that returned, with the fields after it. -/
def proceed (x : Method ε σ α) (s : σ) : Except ε (α × σ) :=
  match x.call s with
  | (.ok a,s') => .ok (a,s')
  | (.error e,_) => .error e

theorem proceed_eq_ok {x : Method ε σ α} {s : σ} {r : α × σ} :
    x.proceed s = .ok r ↔ x.call s = (.ok r.1,r.2) := by
  unfold proceed
  rcases x.call s with ⟨_ | a,s'⟩
  · simp
  · simp [Prod.ext_iff]

/-- A call does what a computation without fields says: when that gives a result, so does
the call, and `post` relates the two and the fields after it; when that fails, the call
throws, and `fail` relates the two errors and the fields the call leaves. -/
structure Follows {ε' : Type} (x : Method ε σ α) (s : σ) (y : Except ε' β)
    (post : β → α → σ → Prop) (fail : ε' → ε → σ → Prop) : Prop where
  ok : ∀ b, y = .ok b → ∃ a s', x.call s = (.ok a,s') ∧ post b a s'
  error : ∀ e', y = .error e' → ∃ e s', x.call s = (.error e,s') ∧ fail e' e s'

namespace Follows
variable {ε' γ δ : Type} {post : β → α → σ → Prop} {fail : ε' → ε → σ → Prop} {s : σ}

theorem pure {a : α} {b : β} (h : post b a s) :
    Follows (Pure.pure a : Method ε σ α) s (.ok b) post fail where
  ok _ hb := ⟨a,s,rfl,Except.ok.inj hb ▸ h⟩
  error := nofun

theorem throw {e : ε} {e' : ε'} (h : fail e' e s) :
    Follows (MonadExcept.throw e : Method ε σ α) s (.error e') post fail where
  ok := nofun
  error _ he := ⟨e,s,rfl,Except.error.inj he ▸ h⟩

theorem imp {x : Method ε σ α} {y : Except ε' β} {post' : β → α → σ → Prop}
    {fail' : ε' → ε → σ → Prop} (h : Follows x s y post fail)
    (hpost : ∀ b a s', post b a s' → post' b a s')
    (hfail : ∀ e' e s', fail e' e s' → fail' e' e s') : Follows x s y post' fail' where
  ok b hb := by
    obtain ⟨a,s',hc,hp⟩ := h.ok b hb
    exact ⟨a,s',hc,hpost _ _ _ hp⟩
  error e' he := by
    obtain ⟨e,s',hc,hf⟩ := h.error e' he
    exact ⟨e,s',hc,hfail _ _ _ hf⟩

/-- A call that ends in the same way as another one. -/
theorem of_call {x x' : Method ε σ α} {mid : σ} {y : Except ε' β} (hc : x.call s = x'.call mid)
    (h : Follows x' mid y post fail) : Follows x s y post fail where
  ok b hb := by
    rw [hc]
    exact h.ok b hb
  error e' he := by
    rw [hc]
    exact h.error e' he

theorem bind {x : Method ε σ γ} {f : γ → Method ε σ α} {y : Except ε' δ} {g : δ → Except ε' β}
    {m : δ → γ → σ → Prop} (hx : Follows x s y m fail)
    (hf : ∀ d c s', y = .ok d → m d c s' → Follows (f c) s' (g d) post fail) :
    Follows (x >>= f) s (y >>= g) post fail := by
  cases y with
  | ok d =>
    obtain ⟨c,s',hc,hmid⟩ := hx.ok d rfl
    exact of_call (bind_of_ok hc f) (hf d c s' rfl hmid)
  | error e' =>
    obtain ⟨e,s',hc,hfail⟩ := hx.error e' rfl
    exact ⟨nofun,fun e'' he => ⟨e,s',by rw [call_bind,hc],Except.error.inj he ▸ hfail⟩⟩

theorem get {f : σ → Method ε σ α} {y : Except ε' β} (h : Follows (f s) s y post fail) :
    Follows (MonadState.get >>= f) s y post fail := of_call (get_bind f s) h

theorem modify {g : σ → σ} {f : Unit → Method ε σ α} {y : Except ε' β}
    (h : Follows (f ()) (g s) y post fail) : Follows (modify g >>= f) s y post fail :=
  of_call (modify_bind g f s) h

/-- A step that returned. -/
theorem skip {c : γ} {f : γ → Method ε σ α} {y : Except ε' β} (h : Follows (f c) s y post fail) :
    Follows (liftM (Except.ok c : Except ε γ) >>= f) s y post fail :=
  of_call (bind_of_ok (call_lift (Except.ok c) s) f) h

/-- A last step without fields. -/
theorem tail {x : Except ε α} {y : Except ε' β}
    (hok : ∀ b, y = .ok b → ∃ a, x = .ok a ∧ post b a s)
    (hfail : ∀ e', y = .error e' → ∃ e, x = .error e ∧ fail e' e s) :
    Follows (liftM x : Method ε σ α) s y post fail where
  ok b hb := by
    obtain ⟨a,rfl,h⟩ := hok b hb
    exact ⟨a,s,rfl,h⟩
  error e' he := by
    obtain ⟨e,rfl,h⟩ := hfail e' he
    exact ⟨e,s,rfl,h⟩

/-- A step without fields. -/
theorem lift {x : Except ε γ} {f : γ → Method ε σ α} {y : Except ε' δ} {g : δ → Except ε' β}
    (hok : ∀ d, y = .ok d → ∃ c, x = .ok c ∧ Follows (f c) s (g d) post fail)
    (hfail : ∀ e', y = .error e' → ∃ e, x = .error e ∧ fail e' e s) :
    Follows (liftM x >>= f) s (y >>= g) post fail := by
  refine bind (m := fun d c s' => s' = s ∧ Follows (f c) s (g d) post fail) (tail ?_ hfail) ?_
  · intro d hd
    obtain ⟨c,hc,h⟩ := hok d hd
    exact ⟨c,hc,rfl,h⟩
  · rintro d c _ - ⟨rfl,h⟩
    exact h

/-- The same step on both sides. -/
theorem same {fail : ε → ε → σ → Prop} {x : Except ε γ} {f : γ → Method ε σ α}
    {g : γ → Except ε β} (hok : ∀ c, x = .ok c → Follows (f c) s (g c) post fail)
    (hfail : ∀ e, x = .error e → fail e e s) :
    Follows (liftM x >>= f) s (x >>= g) post fail :=
  lift (fun c hc => ⟨c,hc,hok c hc⟩) fun e he => ⟨e,he,hfail e he⟩

/-- A step whose errors are handled on both sides. -/
theorem attempt {x : Except ε α} {handle : ε → Method ε σ α} {handle' : ε → Except ε α}
    {post : α → α → σ → Prop} {fail : ε → ε → σ → Prop} (hok : ∀ a, x = .ok a → post a a s)
    (herror : ∀ e, x = .error e → Follows (handle e) s (handle' e) post fail) :
    Follows (tryCatch (liftM x) handle) s (tryCatch x handle') post fail := by
  cases x with
  | ok a => exact of_call (call_tryCatch (liftM (Except.ok a)) handle s) (pure (hok a rfl))
  | error e =>
    exact of_call (call_tryCatch (liftM (Except.error e)) handle s) (herror e rfl)

end Follows

/-- A call keeps `P` whether it returns or throws. -/
def Keeps (P : σ → Prop) (x : Method ε σ α) : Prop := ∀ s, P s → P (x.call s).2

namespace Keeps
variable {P : σ → Prop}

theorem pure (a : α) : Keeps P (Pure.pure a : Method ε σ α) := fun _ h => h

theorem throw (e : ε) : Keeps P (MonadExcept.throw e : Method ε σ α) := fun _ h => h

theorem get : Keeps P (MonadState.get : Method ε σ σ) := fun _ h => h

theorem lift (x : Except ε α) : Keeps P (liftM x : Method ε σ α) := fun _ h => h

theorem modify {f : σ → σ} (h : ∀ s, P s → P (f s)) : Keeps P (modify f : Method ε σ Unit) := h

theorem bind {x : Method ε σ α} {f : α → Method ε σ β} (hx : Keeps P x)
    (hf : ∀ a, Keeps P (f a)) : Keeps P (x >>= f) := by
  intro s h
  have hmid := hx s h
  rw [call_bind]
  rcases hc : x.call s with ⟨_ | a,mid⟩
  · rwa [hc] at hmid
  · exact hf a mid (by rwa [hc] at hmid)

theorem map {x : Method ε σ α} (f : α → β) (hx : Keeps P x) : Keeps P (f <$> x) := by
  intro s h
  rw [call_map]
  exact hx s h

theorem ite {c : Prop} [Decidable c] {x y : Method ε σ α} (hx : c → Keeps P x)
    (hy : ¬c → Keeps P y) : Keeps P (if c then x else y) := by
  split_ifs with h
  · exact hx h
  · exact hy h

end Keeps

/-- A call that throws leaves the fields as they were. -/
def Atomic (x : Method ε σ α) (s : σ) : Prop := ∀ e s', x.call s = (.error e,s') → s' = s

namespace Atomic
variable {s : σ}

theorem get {f : σ → Method ε σ α} (h : Atomic (f s) s) : Atomic (MonadState.get >>= f) s :=
  fun e s' he => h e s' (by rwa [get_bind] at he)

/-- A step without fields. -/
theorem lift {x : Except ε β} {f : β → Method ε σ α} (h : ∀ b, x = .ok b → Atomic (f b) s) :
    Atomic (liftM x >>= f) s := by
  intro e s' he
  rw [call_bind,call_lift] at he
  cases x with
  | error e' => exact (Prod.mk.inj he).2.symm
  | ok b => exact h b rfl e s' he

/-- After the first call nothing throws. -/
theorem bind {x : Method ε σ β} {f : β → Method ε σ α} (hx : Atomic x s)
    (hf : ∀ b mid, x.call s = (.ok b,mid) → ∃ a s', (f b).call mid = (.ok a,s')) :
    Atomic (x >>= f) s := by
  intro e s' he
  rw [call_bind] at he
  rcases hc : x.call s with ⟨e' | b,mid⟩
  · rw [hc] at he
    exact (Prod.mk.inj he).2 ▸ hx _ _ hc
  · rw [hc] at he
    obtain ⟨a,s'',ha⟩ := hf b mid hc
    cases ha.symm.trans he

end Atomic

/-- The results of a list of calls, each with its call, and the fields after them. -/
def run {ι : Type} (call : ι → Method ε σ α) : List ι → σ → List (ι × Except ε α) × σ
  | [], s => ([],s)
  | i::is, s =>
    let r := (call i).call s
    let rest := run call is r.2
    ((i,r.1)::rest.1,rest.2)

/-- One more call. -/
theorem run_concat {ι : Type} (call : ι → Method ε σ α) (is : List ι) (i : ι) (s : σ) :
    run call (is++[i]) s = ((run call is s).1++[(i,((call i).call (run call is s).2).1)],
      ((call i).call (run call is s).2).2) := by
  induction is generalizing s with
  | nil => rfl
  | cons j is ih => simp only [List.cons_append,run,ih]

theorem map_fst_run {ι : Type} (call : ι → Method ε σ α) (is : List ι) (s : σ) :
    (run call is s).1.map Prod.fst = is := by
  induction is generalizing s with
  | nil => rfl
  | cons i is ih => rw [run,List.map_cons,ih]

/-- What holds of the results and the fields so far, and is kept by every call, holds
after every run. -/
theorem run_inv {ι : Type} {call : ι → Method ε σ α} {P : List (ι × Except ε α) → σ → Prop}
    (h : ∀ past s i, P past s → P (past++[(i,((call i).call s).1)]) ((call i).call s).2)
    {s : σ} (hs : P [] s) (is : List ι) : P (run call is s).1 (run call is s).2 := by
  have hrun (past : List (ι × Except ε α)) (s : σ) (hs : P past s) :
      P (past++(run call is s).1) (run call is s).2 := by
    induction is generalizing past s with
    | nil => simpa [run] using hs
    | cons i is ih => simpa [run] using ih _ _ (h past s i hs)
  exact hrun [] s hs

end Method
end Semp
