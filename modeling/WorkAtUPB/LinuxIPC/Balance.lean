import WorkAtUPB.Lib.Census
import WorkAtUPB.LinuxIPC.Clients

namespace WorkAtUPB.LinuxIPC

open Run Census

/-!
# The balance of the semaphores

The server posts semaphores for a message and the client that has sent it waits for them.  Two
operations leave a post behind that nobody waits for: a word of bucket 0, for which
`packet_handler` does not wait, and the loop that prints, which posts each semaphore again after
the server has.

* `System.balance` — what a semaphore will be worth once everybody is through;
* `Action.unmatched` — the action brings a post without a wait;
* `balance_step` — the balance changes with these actions only;
* `balanced_iff` — at rest, the semaphores are all 0 exactly when there was none of them.
-/

variable {T : Type*}

/-- What a client still adds to a semaphore: it posts the one it has passed to print, and waits
    for those of its message. -/
def Pc.credit (b : Bucket) : Pc → ℤ
  | .idle | .prints _ => 0
  | .waits _ _ todo => -(todo.count b : ℤ)
  | .printing c _ => if c = b then 1 else 0

/-- The semaphore, the posts for the messages in the queue, and what the clients add. -/
def System.balance [Fintype T] (s : System T) (b : Bucket) : ℤ :=
  s.sem b + (s.queue.flatMap fun q => q.2.posts).count b + ∑ t, (s.pc t).credit b

/-- There are buckets. -/
theorem bucketCount_pos : 0 < bucketCount := by decide

/-- The message is posted on `b` once more than it is waited for. -/
def Message.unmatched (b : Bucket) : Message → Bool
  | .add w | .remove w => hash w.chars = ⟨0, bucketCount_pos⟩ ∧ b = ⟨0, bucketCount_pos⟩
  | .print => true
  | .clear | .exit => false

/-- The action sends such a message. -/
def Action.unmatched (b : Bucket) : Action T → Bool
  | .send _ msg => msg.unmatched b
  | _ => false

/-- The queue is empty, the server waits for a message, and no client is inside of
    `packet_handler`. -/
structure System.AtRest (s : System T) : Prop where
  queue : s.queue = []
  running : s.done = false
  idle : ∀ t, s.pc t = .idle

/-- The message is not to bucket 0, and does not print. -/
def Message.Balanced : Message → Prop
  | .add w | .remove w => hash w.chars ≠ ⟨0, bucketCount_pos⟩
  | .print => False
  | .clear | .exit => True

/-- The action does not send a message that is not balanced. -/
def Balanced : Action T → Prop
  | .send _ msg => msg.Balanced
  | _ => True

section Credit

variable (b : Bucket)

/-- A client that is idle is owed nothing. -/
@[simp] theorem credit_idle : Pc.credit b .idle = 0 := rfl

/-- Nor is one that is going to print. -/
@[simp] theorem credit_prints (todo : List Bucket) : Pc.credit b (.prints todo) = 0 := rfl

/-- What a client is owed that waits. -/
@[simp] theorem credit_waits (serial : Nat) (msg : Message) (todo : List Bucket) :
    Pc.credit b (.waits serial msg todo) = -(todo.count b : ℤ) := rfl

/-- What a client is owed that prints. -/
@[simp] theorem credit_printing (c : Bucket) (todo : List Bucket) :
    Pc.credit b (.printing c todo) = if c = b then 1 else 0 := rfl

end Credit

/-! ### Posts and waits of a message -/

/-- A request for a word is posted once for each wait, and once more where it is unmatched. -/
theorem posts_count (msg : Message) (hprint : msg ≠ .print) (b : Bucket) :
    (msg.posts.count b : ℤ) = msg.waitsFor.count b + if msg.unmatched b then 1 else 0 := by
  cases msg with
  | add w | remove w =>
    simp only [Message.posts, Message.waitsFor, Message.unmatched]
    by_cases hzero : hash w.chars = ⟨0, bucketCount_pos⟩
    · by_cases hb : b = ⟨0, bucketCount_pos⟩
      · simp [hzero, hb]
      · simp [hzero, hb, Ne.symm hb]
    · simp [hzero]
  | clear | exit => simp [Message.posts, Message.waitsFor, Message.unmatched]
  | print => exact absurd rfl hprint

/-- A balanced request has no unmatched post. -/
theorem balanced_iff_unmatched (msg : Message) :
    msg.Balanced ↔ ∀ b, msg.unmatched b = false := by
  cases msg with
  | add w | remove w => simp [Message.Balanced, Message.unmatched]
  | print =>
    simp only [Message.Balanced, Message.unmatched, false_iff, not_forall]
    exact ⟨⟨0, bucketCount_pos⟩, nofun⟩
  | clear | exit => simp [Message.Balanced, Message.unmatched]

/-! ### The balance over a run -/

section Steps

variable [Fintype T] [DecidableEq T]

/-- The clients' share of the balance, after one of them has moved. -/
theorem sum_credit_update (pc : T → Pc) (t : T) (p : Pc) (b : Bucket) :
    ∑ u, (Function.update pc t p u).credit b =
      ∑ u, (pc u).credit b - (pc t).credit b + p.credit b :=
  sum_comp_update (Pc.credit b) pc t p

/-- A request that is sent adds its unmatched post. -/
theorem balance_send {s s' : System T} {t : T} {msg : Message} (hs : s.send t msg = some s')
    (b : Bucket) : s'.balance b = s.balance b + if msg.unmatched b then 1 else 0 := by
  unfold System.send at hs
  split at hs <;> [skip; cases hs]
  next hidle =>
  split at hs <;> [skip; cases hs]
  obtain rfl := Option.some.inj hs
  simp only [System.balance, sum_credit_update, hidle, List.flatMap_append, List.count_append,
    List.flatMap_cons, List.flatMap_nil, List.append_nil]
  by_cases hprint : msg = .print
  · have hone : (Message.print.posts).count b = 1 :=
      List.count_eq_one_of_mem (List.nodup_finRange _) (List.mem_finRange b)
    simp [hprint, hone, Message.unmatched]
    omega
  · have hposts := posts_count msg hprint b
    simp only [if_neg hprint, credit_idle, credit_waits]
    push_cast
    omega

omit [DecidableEq T] in
/-- The server keeps the balance. -/
theorem balance_receive {s s' : System T} (hs : s.receive = some s') (b : Bucket) :
    s'.balance b = s.balance b := by
  unfold System.receive at hs
  split at hs
  · cases hs
  split at hs
  · cases hs
  next n msg queue hqueue =>
  obtain ⟨m, -, rfl⟩ := Option.map_eq_some_iff.mp hs
  simp only [System.balance, hqueue, List.flatMap_cons, List.count_append]
  push_cast
  omega

/-- A client that moves as it changes a semaphore leaves the balance, if it adds as much more as the
    semaphore has less. -/
theorem balance_update (s : System T) (t : T) (c : Bucket) (n : Nat) (p : Pc)
    (hcredit : ∀ b, p.credit b =
      (s.pc t).credit b + if b = c then (s.sem c : ℤ) - n else 0) (b : Bucket) :
    System.balance { s with
      sem := Function.update s.sem c n
      pc := Function.update s.pc t p } b = s.balance b := by
  simp only [System.balance, sum_credit_update, hcredit b]
  by_cases hcb : b = c
  · subst hcb
    rw [Function.update_self, if_pos rfl]
    omega
  · rw [Function.update_of_ne hcb, if_neg hcb]
    omega

/-- So does a wait. -/
theorem balance_wait {s s' : System T} {t : T} (hs : s.wait t = some s') (b : Bucket) :
    s'.balance b = s.balance b := by
  unfold System.wait at hs
  split at hs
  · next serial msg c todo hpc =>
    split at hs <;> [skip; cases hs]
    next hpos =>
    obtain rfl := Option.some.inj hs
    refine balance_update s t c _ _ (fun b => ?_) b
    rw [hpc, credit_waits, credit_waits, List.count_cons]
    by_cases hcb : b = c
    · simp [hcb]
      omega
    · simp [hcb, Ne.symm hcb]
  · next c todo hpc =>
    split at hs <;> [skip; cases hs]
    next hpos =>
    obtain rfl := Option.some.inj hs
    refine balance_update s t c _ _ (fun b => ?_) b
    rw [hpc, credit_prints, credit_printing]
    by_cases hcb : b = c
    · simp [hcb]
      omega
    · simp [hcb, Ne.symm hcb]
  · cases hs

/-- So does a post. -/
theorem balance_post {s s' : System T} {t : T} (hs : s.post t = some s') (b : Bucket) :
    s'.balance b = s.balance b := by
  unfold System.post at hs
  split at hs <;> [skip; cases hs]
  next c todo hpc =>
  obtain rfl := Option.some.inj hs
  refine balance_update s t c (s.sem c + 1) (.prints todo) (fun b => ?_) b
  rw [hpc, credit_prints, credit_printing]
  by_cases hcb : b = c
  · simp [hcb]
  · simp [hcb, Ne.symm hcb]

/-- So does a client that returns. -/
theorem balance_ret {s s' : System T} {t : T} (hs : s.ret t = some s') (b : Bucket) :
    s'.balance b = s.balance b := by
  unfold System.ret at hs
  split at hs <;> [skip; skip; cases hs]
  all_goals
    next hpc =>
    obtain rfl := Option.some.inj hs
    simp [System.balance, sum_credit_update, hpc]

/-- **The balance.**  It grows with the actions that bring a post without a wait, and does not
    change with any other. -/
theorem balance_step (b : Bucket) (s : System T) (a : Action T) (s' : System T)
    (hs : step s a = some s') : s'.balance b = s.balance b + if a.unmatched b then 1 else 0 := by
  cases a with
  | send t msg => exact balance_send hs b
  | receive => simpa [Action.unmatched] using balance_receive hs b
  | wait t => simpa [Action.unmatched] using balance_wait hs b
  | post t => simpa [Action.unmatched] using balance_post hs b
  | ret t => simpa [Action.unmatched] using balance_ret hs b

omit [DecidableEq T] in
/-- All is even at first. -/
theorem balance_start (b : Bucket) : (System.start : System T).balance b = 0 := by
  simp [System.balance, System.start]

omit [DecidableEq T] in
/-- At rest the balance is the semaphore. -/
theorem balance_atRest {s : System T} (hrest : s.AtRest) (b : Bucket) :
    s.balance b = s.sem b := by
  simp [System.balance, hrest.queue, hrest.idle]

/-- At rest a semaphore counts the posts that nobody waits for. -/
theorem sem_eq_countP {as : List (Action T)} {s : System T} (hrun : run step .start as = some s)
    (hrest : s.AtRest) (b : Bucket) : s.sem b = as.countP (Action.unmatched b) := by
  have hcount := run_countP (balance_step b) hrun
  rw [balance_atRest hrest, balance_start, zero_add] at hcount
  exact_mod_cast hcount

/-- **Balanced semaphores.**  In every run of any number of clients, when the queue is empty, the
    server waits and no client is inside of `packet_handler`, all semaphores are 0 exactly if no
    client has printed, and none has added or removed a word of bucket 0. -/
theorem balanced_iff (as : List (Action T)) (s : System T) (hrun : run step .start as = some s)
    (hrest : s.AtRest) : (∀ b, s.sem b = 0) ↔ ∀ a ∈ as, Balanced a := by
  have hbalanced : ∀ a : Action T, Balanced a ↔ ∀ b, a.unmatched b = false := by
    intro a
    cases a with
    | send t msg => exact balanced_iff_unmatched msg
    | receive | wait | post | ret => simp [Balanced, Action.unmatched]
  simp only [sem_eq_countP hrun hrest, List.countP_eq_zero, Bool.not_eq_true, hbalanced]
  exact ⟨fun h a ha b => h b a ha, fun h b a ha => h a ha b⟩

end Steps

/-- A word of another bucket is removed: the semaphores are 0 again. -/
theorem balanced_iff_remove : ∃ s, run step (System.start : System Unit)
    [.send () (.remove shortWord), .receive, .wait (), .ret ()] = some s ∧ ∀ b, s.sem b = 0 := by
  refine ⟨_, rfl, (balanced_iff [.send () (.remove shortWord), .receive, .wait (), .ret ()] _ rfl
    ⟨rfl, rfl, fun _ => rfl⟩).mpr ?_⟩
  simp only [List.forall_mem_cons, Balanced, Message.Balanced]
  exact ⟨by decide, trivial, trivial, trivial, nofun⟩

/-- **A post that nobody waits for.**  A word of bucket 0 is removed: at rest, the semaphore of
    the bucket is 1. -/
theorem not_balanced : ¬ ∀ (as : List (Action Unit)) (s : System Unit),
    run step .start as = some s → s.AtRest → ∀ b, s.sem b = 0 := by
  intro h
  have hzero := h [.send () (.remove firstBucketWord), .ret (), .receive] _ rfl
    ⟨rfl, rfl, fun _ => rfl⟩ ⟨0, bucketCount_pos⟩
  cases hzero

end WorkAtUPB.LinuxIPC
