import Mathlib.Data.List.Basic
import Mathlib.Data.List.Range

/-! A mailbox: messages that wait for a receiver, or receivers that wait for a message.
Receivers are numbered in the order in which they ask.  What each of them is answered does not
depend on how messages and receivers come in turn. -/
namespace Semp

/-- `settled` holds what was answered, with the number of the receiver it was answered to. -/
structure Mailbox (α β : Type) where
  items : List α
  waiters : List ℕ
  made : ℕ
  settled : List ((α ⊕ β) × ℕ)
  deriving DecidableEq, Repr

namespace Mailbox
variable {α β : Type}

def empty : Mailbox α β := ⟨[],[],0,[]⟩

/-- A message goes to the receiver that has waited longest, or waits for one. -/
def give (m : Mailbox α β) (v : α) : Mailbox α β :=
  match m.waiters with
  | w::waiters => {m with waiters, settled := m.settled++[(.inl v,w)]}
  | [] => {m with items := m.items++[v]}

/-- A receiver that is answered as it asks. -/
def reply (m : Mailbox α β) (answer : α ⊕ β) : Mailbox α β :=
  {m with made := m.made+1, settled := m.settled++[(answer,m.made)]}

def wait (m : Mailbox α β) : Mailbox α β :=
  {m with waiters := m.waiters++[m.made], made := m.made+1}

/-- A receiver gets the message that has waited longest.  Where none does, it is told that
there will be none, when that is so, and waits otherwise. -/
def ask (m : Mailbox α β) (ended : Option β) : Mailbox α β :=
  match m.items with
  | v::items => {m with items}.reply (.inl v)
  | [] =>
    match ended with
    | some b => m.reply (.inr b)
    | none => m.wait

/-- Every receiver that waits is told that there will be no message. -/
def dismiss (m : Mailbox α β) (b : β) : Mailbox α β :=
  {m with waiters := [], settled := m.settled++m.waiters.map fun w => (.inr b,w)}

/-- The mailbox that has answered the first receivers so, with these messages left. -/
def holding (answers : List (α ⊕ β)) (items : List α) (made : ℕ) : Mailbox α β :=
  ⟨items,List.range' answers.length (made-answers.length),made,answers.zipIdx⟩

/-- The mailbox into which these messages were put and which so many receivers asked. -/
def flow (sent : List α) (made : ℕ) : Mailbox α β :=
  holding ((sent.take made).map .inl) (sent.drop made) made

/-- The mailbox whose receivers each got a message or, where none was left for them, were told
what `told` holds for them. -/
def served (sent : List α) (told : List β) : Mailbox α β :=
  holding ((sent.take told.length).map .inl++(told.drop sent.length).map .inr)
    (sent.drop told.length) told.length

section Holding
variable {answers : List (α ⊕ β)} {items : List α} {made : ℕ} {v : α} {b : β}

theorem empty_eq : (empty : Mailbox α β) = flow [] 0 := rfl

theorem zipIdx_concat {γ : Type} (l : List γ) (c : γ) :
    (l++[c]).zipIdx = l.zipIdx++[(c,l.length)] := by
  rw [List.zipIdx_append,Nat.zero_add]
  rfl

theorem zipIdx_replicate {γ : Type} (l : List γ) (n : ℕ) (c : γ) :
    (l++List.replicate n c).zipIdx = l.zipIdx++(List.range' l.length n).map fun i => (c,i) := by
  induction n with
  | zero => rw [List.replicate_zero,List.append_nil,List.range'_zero,List.map_nil,List.append_nil]
  | succ n ih =>
    rw [List.replicate_succ',← List.append_assoc,zipIdx_concat,ih,List.range'_concat,Nat.one_mul,
      List.map_append,List.append_assoc,List.length_append,List.length_replicate]
    rfl

theorem give_waiting (h : answers.length < made) :
    (holding answers items made).give v = holding (answers++[.inl v]) items made := by
  obtain ⟨k,hk⟩ : ∃ k, made-answers.length = k+1 := ⟨made-answers.length-1,by omega⟩
  have hlen : (answers++[(.inl v : α ⊕ β)]).length = answers.length+1 := by simp
  have hrest : made-(answers.length+1) = k := by omega
  simp only [give,holding,hk,List.range'_succ,hlen,hrest,zipIdx_concat]

theorem give_idle (h : answers.length = made) :
    (holding answers items made).give v = holding answers (items++[v]) made := by
  simp only [give,holding,h,Nat.sub_self,List.range'_zero]

theorem reply_idle (h : answers.length = made) (answer : α ⊕ β) :
    (holding answers items made).reply answer = holding (answers++[answer]) items (made+1) := by
  simp only [reply,holding,h,Nat.sub_self,List.range'_zero,zipIdx_concat,List.length_append,
    List.length_singleton]

theorem wait_holding (h : answers.length ≤ made) :
    (holding answers items made).wait = holding answers items (made+1) := by
  have hlast : answers.length+(made-answers.length) = made := by omega
  simp only [wait,holding,Nat.sub_add_comm h,List.range'_concat,Nat.one_mul,hlast]

theorem dismiss_holding (h : answers.length ≤ made) :
    (holding answers items made).dismiss b =
      holding (answers++List.replicate (made-answers.length) (.inr b)) items made := by
  have hlen : answers.length+(made-answers.length) = made := by omega
  simp only [dismiss,holding,zipIdx_replicate,List.length_append,List.length_replicate,hlen,
    Nat.sub_self,List.range'_zero]

end Holding

section Flow
variable {sent : List α} {made : ℕ} {told : List β} {v : α} {b : β}

theorem length_given : ((sent.take made).map (.inl : α → α ⊕ β)).length = min made sent.length := by
  rw [List.length_map,List.length_take]

theorem length_served : ((sent.take told.length).map Sum.inl++
    (told.drop sent.length).map (Sum.inr : β → α ⊕ β)).length = told.length := by
  rw [List.length_append,length_given,List.length_map,List.length_drop]
  omega

theorem give_flow : (flow sent made : Mailbox α β).give v = flow (sent++[v]) made := by
  by_cases h : sent.length < made
  · have htake : (sent++[v]).take made = sent++[v] := List.take_of_length_le (by simp; omega)
    have hdrop : (sent++[v]).drop made = [] := List.drop_of_length_le (by simp; omega)
    rw [flow,give_waiting (by rw [length_given]; omega),flow,htake,hdrop,
      List.take_of_length_le h.le,List.drop_of_length_le h.le,List.map_append]
    rfl
  · rw [flow,give_idle (by rw [length_given]; omega),flow,List.take_append_of_le_length (by omega),
      List.drop_append_of_le_length (by omega)]

theorem ask_flow : (flow sent made : Mailbox α β).ask none = flow sent (made+1) := by
  by_cases h : made < sent.length
  · have hdrop : sent.drop made = sent[made]::sent.drop (made+1) := List.drop_eq_getElem_cons h
    have hlen : ((sent.take made).map (.inl : α → α ⊕ β)).length = made := by
      rw [length_given]
      omega
    simp only [flow,ask,holding,hdrop]
    rw [List.take_succ_eq_append_getElem h,List.map_append]
    exact reply_idle hlen _
  · have hdrop : sent.drop made = [] := List.drop_of_length_le (by omega)
    have hlen : ((sent.take made).map (.inl : α → α ⊕ β)).length ≤ made := by
      rw [length_given]
      exact min_le_left _ _
    have htake : sent.take (made+1) = sent.take made := by
      rw [List.take_of_length_le (by omega),List.take_of_length_le (by omega)]
    have hrest : sent.drop (made+1) = sent.drop made := by
      rw [hdrop,List.drop_of_length_le (by omega)]
    rw [flow,flow,htake,hrest,← wait_holding hlen,ask]
    simp only [holding,hdrop]

theorem dismiss_flow :
    (flow sent made : Mailbox α β).dismiss b = served sent (List.replicate made b) := by
  have hlen : made-((sent.take made).map (.inl : α → α ⊕ β)).length = made-sent.length := by
    rw [length_given]
    omega
  rw [flow,dismiss_holding (by rw [length_given]; exact min_le_left _ _),served,hlen,
    List.length_replicate,List.drop_replicate,List.map_replicate]

/-- While messages are left nobody waits. -/
theorem flow_of_items (h : (flow sent made : Mailbox α β).items.length ≠ 0) (b : β) :
    flow sent made = served sent (List.replicate made b) := by
  have hlen : made < sent.length := by
    simp only [flow,holding,List.length_drop] at h
    omega
  rw [served,List.drop_replicate,List.length_replicate,Nat.sub_eq_zero_of_le hlen.le,
    List.replicate_zero,List.map_nil,List.append_nil,flow]

theorem dismiss_served : (served sent told).dismiss b = served sent told := by
  rw [served,dismiss_holding length_served.le,length_served,Nat.sub_self,List.replicate_zero,
    List.append_nil]

/-- What was left when there were to be no more messages is still received. -/
theorem ask_served : (served sent told).ask (some b) = served sent (told++[b]) := by
  have hnext : (told++[b]).length = told.length+1 := by simp
  by_cases h : told.length < sent.length
  · have hdrop : sent.drop told.length = sent[told.length]::sent.drop (told.length+1) :=
      List.drop_eq_getElem_cons h
    have hnone : ∀ l : List β, l.length ≤ sent.length → l.drop sent.length = [] := by
      intro l hl
      exact List.drop_of_length_le hl
    have hlen : ((sent.take told.length).map (.inl : α → α ⊕ β)).length = told.length := by
      rw [length_given]
      omega
    simp only [served,ask,holding,hdrop,hnext]
    rw [hnone told h.le,hnone (told++[b]) (by omega),List.map_nil,List.append_nil,List.append_nil,
      List.take_succ_eq_append_getElem h,List.map_append]
    exact reply_idle hlen _
  · have hdrop : ∀ n, told.length ≤ n → sent.drop n = [] :=
      fun n hn => List.drop_of_length_le (by omega)
    have htake : sent.take (told.length+1) = sent.take told.length := by
      rw [List.take_of_length_le (by omega),List.take_of_length_le (by omega)]
    simp only [served,ask,holding,hdrop told.length le_rfl,hnext,hdrop _ (Nat.le_succ _)]
    rw [htake,List.drop_append_of_le_length (by omega),List.map_append,← List.append_assoc]
    exact reply_idle length_served _

end Flow
end Mailbox
end Semp
