import Mathlib.Data.List.FinRange
import Mathlib.Logic.Function.Basic
import WorkAtUPB.Lib.Run
import WorkAtUPB.LinuxIPC.HashTable

namespace WorkAtUPB.LinuxIPC

open Bytes Run

/-!
# LinuxIPC — clients and server (`client.c`, `server.c`)

A client sends a message to the server's queue and waits on the semaphores of the buckets that
the message concerns; the server takes one message after the other and posts them.  A semaphore
says that some message has been processed, not which one:

* `System`, `step` — the queue, the semaphores, the server and the clients, one `mq_send`,
  message, `sem_wait`, `sem_post` or return at a time;
* `Quiet` — nobody has posted a semaphore in vain, and nobody is about to;
* `Alone` — a message is sent only while its buckets are quiet (and not to bucket 0, for which
  `packet_handler` does not wait);
* `eachStep_synchronous` — then `packet_handler` returns when its message has been processed;
* `early_return` — otherwise it may return before.
-/

/-- `mq_maxmsg`. -/
def mqMaxmsg : Nat := 10

/-- The buckets whose semaphores the server posts for a message. -/
def Message.posts : Message → List Bucket
  | .add w | .remove w => [hash w.chars]
  | .clear | .print => List.finRange bucketCount
  | .exit => []

/-- The buckets whose semaphores `packet_handler` waits for after it has sent a message: for a
    clear `all` of them, else the one in `sem_get`, where 0 stands for none. -/
def Message.waitsFor : Message → List Bucket
  | .add w | .remove w => if hash w.chars = ⟨0, by decide⟩ then [] else [hash w.chars]
  | .clear | .print => List.finRange bucketCount
  | .exit => []

/-- Where a client is: outside of `packet_handler`; behind `mq_send`, with the semaphores still
    to wait for; before a `sem_wait` of the loop that prints, or between it and `sem_post`. -/
inductive Pc where
  | idle
  | waits (serial : Nat) (msg : Message) (todo : List Bucket)
  | prints (todo : List Bucket)
  | printing (b : Bucket) (todo : List Bucket)

/-- The queue, whose messages are numbered as they were sent, the server and the clients. -/
structure System (T : Type*) where
  queue : List (Nat × Message)
  sent : Nat
  processed : List Nat
  memory : Mem
  sem : Bucket → Nat
  done : Bool
  pc : T → Pc
  output : List (T × List (List UInt8))

/-- What can happen. -/
inductive Action (T : Type*) where
  | send (t : T) (msg : Message)
  | receive
  | wait (t : T)
  | post (t : T)
  | ret (t : T)

variable {T : Type*}

/-- The server has just been started. -/
def System.start : System T where
  queue := []
  sent := 0
  processed := []
  memory := fun _ => 0
  sem := fun _ => 0
  done := false
  pc := fun _ => .idle
  output := []

section Steps

variable [DecidableEq T]

/-- `packet_handler` up to `mq_send`, which waits until there is room in the queue. -/
def System.send (s : System T) (t : T) (msg : Message) : Option (System T) :=
  match s.pc t with
  | .idle =>
    if s.queue.length < mqMaxmsg then
      some { s with
        queue := s.queue ++ [(s.sent, msg)]
        sent := s.sent + 1
        pc := Function.update s.pc t
          (if msg = .print then .prints msg.waitsFor else .waits s.sent msg msg.waitsFor) }
    else none
  | _ => none

/-- One round of the server's loop. -/
def System.receive (s : System T) : Option (System T) :=
  if s.done then none
  else match s.queue with
    | [] => none
    | (serial, msg) :: queue =>
      (serveTable s.memory msg).map fun m => { s with
        queue := queue
        processed := serial :: s.processed
        memory := m
        sem := fun b => s.sem b + msg.posts.count b
        done := decide (msg = .exit) }

/-- `sem_wait`, if the semaphore is positive. -/
def System.wait (s : System T) (t : T) : Option (System T) :=
  match s.pc t with
  | .waits serial msg (b :: todo) =>
    if 0 < s.sem b then
      some { s with
        sem := Function.update s.sem b (s.sem b - 1)
        pc := Function.update s.pc t (.waits serial msg todo) }
    else none
  | .prints (b :: todo) =>
    if 0 < s.sem b then
      some { s with
        sem := Function.update s.sem b (s.sem b - 1)
        pc := Function.update s.pc t (.printing b todo) }
    else none
  | _ => none

/-- The client prints its bucket, then `sem_post`. -/
def System.post (s : System T) (t : T) : Option (System T) :=
  match s.pc t with
  | .printing b todo =>
    some { s with
      sem := Function.update s.sem b (s.sem b + 1)
      pc := Function.update s.pc t (.prints todo)
      output := (t, printBucket s.memory b) :: s.output }
  | _ => none

/-- `packet_handler` returns. -/
def System.ret (s : System T) (t : T) : Option (System T) :=
  match s.pc t with
  | .waits _ _ [] | .prints [] => some { s with pc := Function.update s.pc t .idle }
  | _ => none

/-- One step, if it is possible. -/
def step (s : System T) : Action T → Option (System T)
  | .send t msg => s.send t msg
  | .receive => s.receive
  | .wait t => s.wait t
  | .post t => s.post t
  | .ret t => s.ret t

end Steps

/-! ### Synchronous operations -/

/-- When `packet_handler` returns from an add, a remove or a clear, its message has been
    processed. -/
def Synchronous (s : System T) : Action T → Prop
  | .ret t => ∀ serial msg, s.pc t = .waits serial msg [] → msg ≠ .exit → serial ∈ s.processed
  | _ => True

/-- The semaphore of the bucket is 0, no message in the queue will post it, and no client that
    prints will. -/
def Quiet (s : System T) (b : Bucket) : Prop :=
  s.sem b = 0 ∧ (∀ q ∈ s.queue, b ∉ q.2.posts) ∧ ∀ t todo, s.pc t ≠ .printing b todo

/-- When an add or a remove is sent, the bucket is not the first one and is quiet; when a clear
    is sent, one of the buckets is quiet. -/
def Alone (s : System T) : Action T → Prop
  | .send _ (.add w) | .send _ (.remove w) =>
    hash w.chars ≠ ⟨0, by decide⟩ ∧ Quiet s (hash w.chars)
  | .send _ .clear => ∃ b, Quiet s b
  | _ => True

/-- The bucket is quiet, as far as the messages before number `serial` go. -/
def QuietBefore (s : System T) (serial : Nat) (b : Bucket) : Prop :=
  s.sem b = 0 ∧ (∀ q ∈ s.queue, q.1 < serial → b ∉ q.2.posts) ∧
    ∀ t todo, s.pc t ≠ .printing b todo

/-- A client that waits for an answer still waits for a bucket that is quiet until its message
    is processed. -/
structure Waiting (s : System T) : Prop where
  processed_lt : ∀ n ∈ s.processed, n < s.sent
  queue_lt : ∀ q ∈ s.queue, q.1 < s.sent
  sorted : s.queue.Pairwise fun q r => q.1 < r.1
  queued : ∀ t serial msg todo, s.pc t = .waits serial msg todo →
    serial ∈ s.processed ∨ (serial, msg) ∈ s.queue
  quiet : ∀ t serial msg todo, s.pc t = .waits serial msg todo → msg ≠ .exit →
    serial ∉ s.processed → ∃ b ∈ todo, QuietBefore s serial b

theorem waiting_start : Waiting (System.start : System T) where
  processed_lt := nofun
  queue_lt := nofun
  sorted := List.Pairwise.nil
  queued := nofun
  quiet := nofun

/-- The bucket that a message leaves its client waiting for. -/
theorem exists_quiet {s : System T} {t : T} {msg : Message} (halone : Alone s (.send t msg))
    (hexit : msg ≠ .exit) (hprint : msg ≠ .print) : ∃ b ∈ msg.waitsFor, Quiet s b := by
  cases msg with
  | add w | remove w => exact ⟨_, by simp [Message.waitsFor, halone.1], halone.2⟩
  | clear =>
    obtain ⟨b, hb⟩ := halone
    exact ⟨b, List.mem_finRange b, hb⟩
  | print => exact absurd rfl hprint
  | exit => exact absurd rfl hexit

/-- A client that has nothing left to wait for has been answered. -/
theorem Waiting.synchronous {s : System T} (hw : Waiting s) (a : Action T) : Synchronous s a := by
  cases a with
  | ret t =>
    intro serial msg hpc hexit
    by_contra hnot
    obtain ⟨b, hb, -⟩ := hw.quiet t serial msg [] hpc hexit hnot
    cases hb
  | send | receive | wait | post => trivial

theorem waiting_receive {s s' : System T} (hw : Waiting s) (hs : s.receive = some s') :
    Waiting s' := by
  unfold System.receive at hs
  split at hs
  · cases hs
  split at hs
  · cases hs
  next n₀ m₀ queue hqueue =>
  obtain ⟨m, -, rfl⟩ := Option.map_eq_some_iff.mp hs
  have hsorted := hw.sorted
  rw [hqueue, List.pairwise_cons] at hsorted
  have hhead : (n₀, m₀) ∈ s.queue := hqueue ▸ List.mem_cons_self
  have htail : ∀ q ∈ queue, q ∈ s.queue := fun q hq => hqueue ▸ List.mem_cons_of_mem _ hq
  refine ⟨?_, fun q hq => hw.queue_lt q (htail q hq), hsorted.2, ?_, ?_⟩
  · intro n hn
    rcases List.mem_cons.mp hn with rfl | hn
    · exact hw.queue_lt _ hhead
    · exact hw.processed_lt n hn
  · intro u serial msg todo hu
    rcases hw.queued u serial msg todo hu with hdone | hin
    · exact Or.inl (List.mem_cons_of_mem _ hdone)
    · rw [hqueue] at hin
      rcases List.mem_cons.mp hin with heq | hin
      · exact Or.inl (by rw [(Prod.mk.inj heq).1]; exact List.mem_cons_self)
      · exact Or.inr hin
  · intro u serial msg todo hu hexit hnot
    have hnot₀ : serial ≠ n₀ := fun h => hnot (h ▸ List.mem_cons_self)
    have hnot' : serial ∉ s.processed := fun h => hnot (List.mem_cons_of_mem _ h)
    obtain ⟨b, hb, hsem, hquiet, hpc⟩ := hw.quiet u serial msg todo hu hexit hnot'
    -- The message processed is before the one of the client, so it does not post the bucket.
    have hin := (hw.queued u serial msg todo hu).resolve_left hnot'
    rw [hqueue] at hin
    have hlt : n₀ < serial := by
      rcases List.mem_cons.mp hin with heq | hin
      · exact absurd (Prod.mk.inj heq).1 hnot₀
      · exact hsorted.1 _ hin
    have hposts : m₀.posts.count b = 0 := List.count_eq_zero.mpr (hquiet _ hhead hlt)
    exact ⟨b, hb, by simp [hsem, hposts], fun q hq => hquiet q (htail q hq), hpc⟩

variable [DecidableEq T]

theorem waiting_send {s s' : System T} {t : T} {msg : Message} (hw : Waiting s)
    (halone : Alone s (.send t msg)) (hs : s.send t msg = some s') : Waiting s' := by
  unfold System.send at hs
  split at hs <;> [skip; cases hs]
  split at hs <;> [skip; cases hs]
  obtain rfl := Option.some.inj hs
  refine ⟨fun n hn => Nat.lt_succ_of_lt (hw.processed_lt n hn), ?_, ?_, ?_, ?_⟩
  · intro q hq
    rcases List.mem_append.mp hq with hq | hq
    · exact Nat.lt_succ_of_lt (hw.queue_lt q hq)
    · rw [List.mem_singleton.mp hq]
      exact Nat.lt_succ_self s.sent
  · refine List.pairwise_append.mpr ⟨hw.sorted, List.pairwise_singleton _ _, fun q hq r hr => ?_⟩
    rw [List.mem_singleton.mp hr]
    exact hw.queue_lt q hq
  · intro u serial m todo hu
    dsimp only at hu
    by_cases hut : u = t
    · subst hut
      rw [Function.update_self] at hu
      split at hu
      · cases hu
      · cases hu
        exact Or.inr (List.mem_append_right _ List.mem_cons_self)
    · rw [Function.update_of_ne hut] at hu
      exact (hw.queued u serial m todo hu).imp_right (List.mem_append_left _)
  · -- The new client is behind `mq_send`, and no client has got behind `sem_wait`.
    have hprinting : ∀ b, (∀ u todo, s.pc u ≠ .printing b todo) → ∀ u todo,
        Function.update s.pc t
          (if msg = .print then .prints msg.waitsFor else .waits s.sent msg msg.waitsFor) u ≠
            .printing b todo := by
      intro b hb u todo
      by_cases hut : u = t
      · subst hut
        rw [Function.update_self]
        split <;> nofun
      · rw [Function.update_of_ne hut]
        exact hb u todo
    intro u serial m todo hu hexit hnot
    dsimp only at hu
    by_cases hut : u = t
    · subst hut
      rw [Function.update_self] at hu
      split at hu
      · cases hu
      · next hprint =>
        cases hu
        obtain ⟨b, hb, hsem, hqueue, hpc⟩ := exists_quiet halone hexit hprint
        refine ⟨b, hb, hsem, fun q hq hlt => ?_, hprinting b hpc⟩
        rcases List.mem_append.mp hq with hq | hq
        · exact hqueue q hq
        · rw [List.mem_singleton.mp hq] at hlt
          exact absurd hlt (Nat.lt_irrefl s.sent)
    · rw [Function.update_of_ne hut] at hu
      obtain ⟨b, hb, hsem, hqueue, hpc⟩ := hw.quiet u serial m todo hu hexit hnot
      refine ⟨b, hb, hsem, fun q hq hlt => ?_, hprinting b hpc⟩
      rcases List.mem_append.mp hq with hq | hq
      · exact hqueue q hq hlt
      · -- The new message is behind those of all clients that wait.
        rw [List.mem_singleton.mp hq] at hlt
        have hsent := hw.queue_lt _ ((hw.queued u serial m todo hu).resolve_left hnot)
        exact absurd hlt (Nat.lt_asymm hsent)

/-- Steps of one client behind `mq_send`: it may pass a semaphore that is not 0, and post one
    that it has passed. -/
theorem Waiting.update {s : System T} (hw : Waiting s) {t : T} {pc : Pc} {sem : Bucket → Nat}
    {output : List (T × List (List UInt8))}
    (hpc : ∀ serial msg todo, pc = .waits serial msg todo → ∃ todo',
      s.pc t = .waits serial msg todo' ∧ ∀ b ∈ todo', s.sem b = 0 → b ∈ todo)
    (hsem : ∀ b, s.sem b = 0 → (∀ todo, s.pc t ≠ .printing b todo) →
      sem b = 0 ∧ ∀ todo, pc ≠ .printing b todo) :
    Waiting { s with sem := sem, pc := Function.update s.pc t pc, output := output } := by
  -- Whoever waits now has waited before, for the semaphores that are still 0.
  have hold : ∀ u serial msg todo, Function.update s.pc t pc u = .waits serial msg todo →
      ∃ todo', s.pc u = .waits serial msg todo' ∧ ∀ b ∈ todo', s.sem b = 0 → b ∈ todo := by
    intro u serial msg todo hu
    by_cases hut : u = t
    · subst hut
      rw [Function.update_self] at hu
      exact hpc serial msg todo hu
    · rw [Function.update_of_ne hut] at hu
      exact ⟨todo, hu, fun _ hb _ => hb⟩
  refine ⟨hw.processed_lt, hw.queue_lt, hw.sorted, ?_, ?_⟩
  · intro u serial msg todo hu
    obtain ⟨todo', hu', -⟩ := hold u serial msg todo hu
    exact hw.queued u serial msg todo' hu'
  · intro u serial msg todo hu hexit hnot
    obtain ⟨todo', hu', htodo⟩ := hold u serial msg todo hu
    obtain ⟨b, hb, hzero, hqueue, hprinting⟩ := hw.quiet u serial msg todo' hu' hexit hnot
    obtain ⟨hzero', hprinting'⟩ := hsem b hzero (hprinting t)
    refine ⟨b, htodo b hb hzero, hzero', hqueue, fun v todo => ?_⟩
    dsimp only
    by_cases hvt : v = t
    · subst hvt
      rw [Function.update_self]
      exact hprinting' todo
    · rw [Function.update_of_ne hvt]
      exact hprinting v todo

theorem waiting_wait {s s' : System T} {t : T} (hw : Waiting s) (hs : s.wait t = some s') :
    Waiting s' := by
  unfold System.wait at hs
  split at hs
  · next serial msg b todo hpc =>
    split at hs <;> [skip; cases hs]
    next hpos =>
    obtain rfl := Option.some.inj hs
    -- The semaphore that is passed was not 0, so it holds up nobody.
    refine hw.update (fun n m todo' heq => ?_) fun c hzero _ => ⟨?_, nofun⟩
    · cases heq
      refine ⟨_, hpc, fun c hc hzero => (List.mem_cons.mp hc).resolve_left ?_⟩
      rintro rfl
      omega
    · have hcb : c ≠ b := by
        rintro rfl
        omega
      rw [Function.update_of_ne hcb, hzero]
  · next b todo hpc =>
    split at hs <;> [skip; cases hs]
    next hpos =>
    obtain rfl := Option.some.inj hs
    refine hw.update nofun fun c hzero _ => ?_
    have hcb : c ≠ b := by
      rintro rfl
      omega
    refine ⟨by rw [Function.update_of_ne hcb, hzero], fun todo' heq => ?_⟩
    cases heq
    exact hcb rfl
  · cases hs

theorem waiting_post {s s' : System T} {t : T} (hw : Waiting s) (hs : s.post t = some s') :
    Waiting s' := by
  unfold System.post at hs
  split at hs
  · next b todo hpc =>
    obtain rfl := Option.some.inj hs
    refine hw.update nofun fun c hzero hprinting => ⟨?_, nofun⟩
    have hcb : c ≠ b := by
      rintro rfl
      exact hprinting todo hpc
    rw [Function.update_of_ne hcb, hzero]
  · cases hs

theorem waiting_ret {s s' : System T} {t : T} (hw : Waiting s) (hs : s.ret t = some s') :
    Waiting s' := by
  unfold System.ret at hs
  split at hs
  · obtain rfl := Option.some.inj hs
    exact hw.update nofun fun _ hzero _ => ⟨hzero, nofun⟩
  · obtain rfl := Option.some.inj hs
    exact hw.update nofun fun _ hzero _ => ⟨hzero, nofun⟩
  · cases hs

theorem waiting_step {s s' : System T} {a : Action T} (hw : Waiting s) (halone : Alone s a)
    (hs : step s a = some s') : Waiting s' := by
  cases a with
  | send t msg => exact waiting_send hw halone hs
  | receive => exact waiting_receive hw hs
  | wait t => exact waiting_wait hw hs
  | post t => exact waiting_post hw hs
  | ret t => exact waiting_ret hw hs

/-- **Synchronous operations.**  In every run of any number of clients in which each add, remove
    and clear is sent while its buckets are quiet, `packet_handler` returns from them only when
    the server has processed the message. -/
theorem eachStep_synchronous (as : List (Action T)) (halone : EachStep step Alone .start as) :
    EachStep step Synchronous .start as :=
  EachStep.of_invariant (fun _ _ _ hw hC hs => waiting_step hw hC hs)
    (fun _ a hw _ => hw.synchronous a) waiting_start halone

/-- The word `[`, whose hash is 0. -/
def firstBucketWord : Word := ⟨[91], by decide, by decide⟩

/-- Another word, of another bucket. -/
def secondWord : Word := ⟨[113], by decide, by decide⟩

/-- Two clients that add words of different buckets at the same time wait until these have been
    added. -/
theorem eachStep_synchronous_two :
    EachStep step Synchronous (System.start : System Bool)
      [.send true (.add shortWord), .send false (.add secondWord), .receive, .wait true, .receive,
        .wait false, .ret false, .ret true] := by
  refine eachStep_synchronous _ ⟨⟨by decide, rfl, nofun, nofun⟩, fun s hs => ⟨?_, fun _ _ =>
    ⟨trivial, fun _ _ => ⟨trivial, fun _ _ => ⟨trivial, fun _ _ => ⟨trivial, fun _ _ =>
      ⟨trivial, fun _ _ => ⟨trivial, fun _ _ => trivial⟩⟩⟩⟩⟩⟩⟩⟩
  -- The word that the other client has sent is in another bucket.
  obtain rfl := Option.some.inj hs
  refine ⟨by decide, rfl, fun q hq => ?_, fun t todo hprints => ?_⟩
  · rw [List.mem_singleton.mp hq]
    decide
  · cases t with
    | true | false => cases hprints

/-- **An operation that is not synchronous.**  A client adds a word to bucket 0: `packet_handler`
    takes the number of the bucket for no bucket, and returns. -/
theorem not_synchronous : ¬ ∀ as : List (Action Unit), EachStep step Synchronous .start as := by
  intro h
  have hret := (h [.send () (.add firstBucketWord), .ret ()]).2 _ rfl
  exact absurd (hret.1 0 (.add firstBucketWord) rfl nofun) List.not_mem_nil

/-! ### Answers to other messages -/

/-- A client that waits for semaphores that have been posted already may go on at once. -/
theorem return_at_once {s : System T} {t : T} {serial : Nat} {msg : Message}
    {todo : List Bucket} (hpc : s.pc t = .waits serial msg todo) (hexit : msg ≠ .exit)
    (hnot : serial ∉ s.processed) (hnodup : todo.Nodup) (hpos : ∀ b ∈ todo, 0 < s.sem b) :
    ¬ EachStep step Synchronous s (List.replicate todo.length (.wait t) ++ [.ret t]) := by
  induction todo generalizing s with
  | nil => exact fun h => hnot (h.1 serial msg hpc hexit)
  | cons b todo ih =>
    have hstep : step s (.wait t) = some { s with
        sem := Function.update s.sem b (s.sem b - 1)
        pc := Function.update s.pc t (.waits serial msg todo) } := by
      simp [step, System.wait, hpc, hpos b List.mem_cons_self]
    intro h
    have hrest := h.2 _ hstep
    refine absurd hrest (ih (Function.update_self ..) hnot (List.nodup_cons.mp hnodup).2
      fun c hc => ?_)
    have hcb : c ≠ b := by
      rintro rfl
      exact (List.nodup_cons.mp hnodup).1 hc
    dsimp only
    rw [Function.update_of_ne hcb]
    exact hpos c (List.mem_cons_of_mem b hc)

theorem waitsFor_nodup (msg : Message) : msg.waitsFor.Nodup := by
  cases msg with
  | add w | remove w =>
    simp only [Message.waitsFor]
    split
    · exact List.nodup_nil
    · exact List.nodup_singleton _
  | clear | print => exact List.nodup_finRange _
  | exit => exact List.nodup_nil

/-- **Early returns.**  Whenever a client can send an add, a remove or a clear and none of the
    semaphores that it will wait for is 0, it may return before its message is processed. -/
theorem early_return {s : System T} (hw : Waiting s) {t : T} {msg : Message}
    (hidle : s.pc t = .idle) (hroom : s.queue.length < mqMaxmsg) (hexit : msg ≠ .exit)
    (hprint : msg ≠ .print) (hpos : ∀ b ∈ msg.waitsFor, 0 < s.sem b) :
    ∃ as, ¬ EachStep step Synchronous s (.send t msg :: as) := by
  have hstep : step s (.send t msg) = some { s with
      queue := s.queue ++ [(s.sent, msg)]
      sent := s.sent + 1
      pc := Function.update s.pc t (.waits s.sent msg msg.waitsFor) } := by
    simp [step, System.send, hidle, hroom, hprint]
  have hnot : s.sent ∉ s.processed := fun h => Nat.lt_irrefl _ (hw.processed_lt _ h)
  refine ⟨List.replicate msg.waitsFor.length (.wait t) ++ [.ret t], fun h => ?_⟩
  have hrest := h.2 _ hstep
  exact absurd hrest (return_at_once (Function.update_self ..) hexit hnot (waitsFor_nodup msg) hpos)

end WorkAtUPB.LinuxIPC
