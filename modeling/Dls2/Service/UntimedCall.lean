import Dls2.Lib.Transition
import Dls2.Service.ServiceClient

/-!
# A call without a time limit

A thread makes calls without a time limit, one after the other, and each request gets one response.
The caller publishes its request before it locks `response_mutex`, and waits without a predicate.
When the callback of the subscriber stores the response and notifies in between, the caller waits
for a notification that is over.

To publish, to lock and to unlock the mutex, to store the response, to notify and to go to sleep are
steps of their own here. A thread wakes up only when it is notified while it sleeps.
-/

namespace Dls2.Service

open Dls2.Transition

/-- The place of the caller in `ServiceClient::call`. -/
inductive CallerPc where
  | idle
  /-- The request has been published. -/
  | lock
  /-- About to release the mutex and sleep. -/
  | wait
  | asleep
  /-- About to lock the mutex again. -/
  | notified
  | take
  | unlock
deriving DecidableEq, Repr

/-- The place of the subscriber's thread in the callback. -/
inductive SubscriberPc (Response : Type) where
  | idle
  | lock (reply : Reply Response)
  | store (reply : Reply Response)
  | notifyAll
  | unlock
deriving DecidableEq, Repr

def CallerPc.holdsMutex : CallerPc → Bool
  | .wait | .take | .unlock => true
  | .idle | .lock | .asleep | .notified => false

def SubscriberPc.holdsMutex {Response : Type} : SubscriberPc Response → Bool
  | .store _ | .notifyAll | .unlock => true
  | .idle | .lock _ => false

/-- The effect of a notification on the caller. -/
def CallerPc.notify : CallerPc → CallerPc
  | .asleep => .notified
  | pc => pc

/-- A client with the thread that calls it and the one of its subscriber. -/
structure UntimedClient (Response : Type) where
  caller : CallerPc
  subscriber : SubscriberPc Response
  remoteResponse : Option (Reply Response)
  /-- How many requests have been published; the last one has this number. -/
  number : Nat
  /-- The request that has not been answered. -/
  unanswered : Option Nat
  /-- The calls that have taken a response, or returned without one. -/
  results : List (Nat × Option (Reply Response))
deriving DecidableEq, Repr

inductive UntimedLabel (Response : Type) where
  | call
  /-- The response to the request arrives. -/
  | respond (response : Response)
  | caller
  | subscriber
deriving DecidableEq, Repr

/-- Steps of the two threads of the client. -/
def UntimedLabel.IsThread {Response : Type} : UntimedLabel Response → Prop
  | .caller | .subscriber => True
  | .call | .respond _ => False

namespace UntimedClient

variable {Response : Type}

def new : UntimedClient Response where
  caller := .idle
  subscriber := .idle
  remoteResponse := none
  number := 0
  unanswered := none
  results := []

/-- Nobody holds `response_mutex`. -/
def mutexFree (client : UntimedClient Response) : Bool :=
  !client.caller.holdsMutex && !client.subscriber.holdsMutex

/-- The end of `call`. -/
def take (client : UntimedClient Response) : UntimedClient Response :=
  { client with
    caller := .unlock
    remoteResponse := none
    results := client.results ++ [(client.number, client.remoteResponse)] }

/-- The next step of the caller. -/
def stepCaller (client : UntimedClient Response) : Option (UntimedClient Response) :=
  match client.caller with
  | .idle | .asleep => none
  | .lock => if client.mutexFree then some { client with caller := .wait } else none
  | .wait => some { client with caller := .asleep }
  | .notified => if client.mutexFree then some { client with caller := .take } else none
  | .take => some client.take
  | .unlock => some { client with caller := .idle }

/-- The next step of the subscriber's callback. -/
def stepSubscriber (client : UntimedClient Response) : Option (UntimedClient Response) :=
  match client.subscriber with
  | .idle => none
  | .lock reply =>
    if client.mutexFree then some { client with subscriber := .store reply } else none
  | .store reply => some { client with remoteResponse := some reply, subscriber := .notifyAll }
  | .notifyAll => some { client with caller := client.caller.notify, subscriber := .unlock }
  | .unlock => some { client with subscriber := .idle }

def step (client : UntimedClient Response) :
    UntimedLabel Response → Option (UntimedClient Response)
  | .call =>
    if client.caller = .idle then
      some { client with
        caller := .lock
        number := client.number + 1
        unanswered := some (client.number + 1) }
    else none
  | .respond response =>
    match client.unanswered, client.subscriber with
    | some number, .idle =>
      some { client with unanswered := none, subscriber := .lock ⟨number, response⟩ }
    | _, _ => none
  | .caller => client.stepCaller
  | .subscriber => client.stepSubscriber

/-- The response to the request of the caller is there, and the caller waits for a notification that
nobody is going to send. -/
structure Stranded (client : UntimedClient Response) : Prop where
  received : ∃ reply, client.remoteResponse = some reply ∧ reply.number = client.number
  asleep : client.caller = .asleep
  unnotified : client.subscriber ≠ .notifyAll

/-- Stranded, where no step is possible any more. -/
def StrandedForGood (client : UntimedClient Response) : Prop :=
  client.Stranded ∧ ∀ label, client.step label = none

/-- The callback does not lock the mutex between the publication of a request and the lock of its
caller. -/
def Heard (client : UntimedClient Response) : UntimedLabel Response → Prop
  | .subscriber => ∀ reply, client.subscriber = .lock reply → client.caller ≠ .lock
  | .call | .respond _ | .caller => True

end UntimedClient

/-- A new client with its threads. -/
def untimedSystem (Response : Type) : System (UntimedClient Response) (UntimedLabel Response) where
  initial := .new
  step := UntimedClient.step

namespace UntimedClient

variable {Response : Type}

/-! ### Calls whose notification is heard -/

/-- The states of a client as long as every notification is heard. -/
inductive InTurn : UntimedClient Response → Prop where
  | quiet {caller : CallerPc} {number : Nat} {results : List (Nat × Option (Reply Response))}
      (out : caller = .idle ∨ caller = .unlock) :
      InTurn ⟨caller, .idle, none, number, none, results⟩
  | unanswered {caller : CallerPc} {number : Nat} {results : List (Nat × Option (Reply Response))}
      (waits : caller = .lock ∨ caller = .wait ∨ caller = .asleep) :
      InTurn ⟨caller, .idle, none, number, some number, results⟩
  | arrived {caller : CallerPc} {number : Nat} {results : List (Nat × Option (Reply Response))}
      (response : Response) (waits : caller = .lock ∨ caller = .wait ∨ caller = .asleep) :
      InTurn ⟨caller, .lock ⟨number, response⟩, none, number, none, results⟩
  | storing {number : Nat} {results : List (Nat × Option (Reply Response))} (response : Response) :
      InTurn ⟨.asleep, .store ⟨number, response⟩, none, number, none, results⟩
  | notifying {number : Nat} {results : List (Nat × Option (Reply Response))}
      (response : Response) :
      InTurn ⟨.asleep, .notifyAll, some ⟨number, response⟩, number, none, results⟩
  | notified {subscriber : SubscriberPc Response} {number : Nat}
      {results : List (Nat × Option (Reply Response))} (response : Response)
      (done : subscriber = .unlock ∨ subscriber = .idle) :
      InTurn ⟨.notified, subscriber, some ⟨number, response⟩, number, none, results⟩
  | taking {number : Nat} {results : List (Nat × Option (Reply Response))} (response : Response) :
      InTurn ⟨.take, .idle, some ⟨number, response⟩, number, none, results⟩

/-- The states after a callback that has locked the mutex before the caller did. -/
inductive Overtaken : UntimedClient Response → Prop where
  | storing {number : Nat} {results : List (Nat × Option (Reply Response))} (response : Response) :
      Overtaken ⟨.lock, .store ⟨number, response⟩, none, number, none, results⟩
  | stored {subscriber : SubscriberPc Response} {number : Nat}
      {results : List (Nat × Option (Reply Response))} (response : Response)
      (holds : subscriber = .notifyAll ∨ subscriber = .unlock) :
      Overtaken ⟨.lock, subscriber, some ⟨number, response⟩, number, none, results⟩
  | missed {caller : CallerPc} {number : Nat} {results : List (Nat × Option (Reply Response))}
      (response : Response) (waits : caller = .lock ∨ caller = .wait ∨ caller = .asleep) :
      Overtaken ⟨caller, .idle, some ⟨number, response⟩, number, none, results⟩

variable {client next final : UntimedClient Response} {label : UntimedLabel Response}
  {labels : List (UntimedLabel Response)}

theorem InTurn.call (inTurn : client.InTurn) (taken : client.step .call = some next) :
    next.InTurn := by
  obtain ⟨idle, taken⟩ := Option.ite_none_right_eq_some.mp taken
  obtain rfl := Option.some.inj taken
  cases inTurn with
  | quiet out => exact .unanswered (.inl rfl)
  | unanswered waits | arrived response waits =>
    obtain rfl := idle
    simp at waits
  | storing _ | notifying _ | notified _ _ | taking _ => cases idle

theorem InTurn.respond {response : Response} (inTurn : client.InTurn)
    (taken : client.step (.respond response) = some next) : next.InTurn := by
  cases inTurn with
  | unanswered waits =>
    obtain rfl := Option.some.inj taken
    exact .arrived response waits
  | _ => cases taken

theorem InTurn.stepCaller (inTurn : client.InTurn) (taken : client.stepCaller = some next) :
    next.InTurn := by
  cases inTurn with
  | quiet out =>
    obtain rfl | rfl := out
    · cases taken
    · obtain rfl := Option.some.inj taken
      exact .quiet (.inl rfl)
  | unanswered waits =>
    obtain rfl | rfl | rfl := waits
    · obtain rfl := Option.some.inj taken
      exact .unanswered (.inr (.inl rfl))
    · obtain rfl := Option.some.inj taken
      exact .unanswered (.inr (.inr rfl))
    · cases taken
  | arrived response waits =>
    obtain rfl | rfl | rfl := waits
    · obtain rfl := Option.some.inj taken
      exact .arrived response (.inr (.inl rfl))
    · obtain rfl := Option.some.inj taken
      exact .arrived response (.inr (.inr rfl))
    · cases taken
  | storing _ | notifying _ => cases taken
  | notified response done =>
    obtain rfl | rfl := done
    · cases taken
    · obtain rfl := Option.some.inj taken
      exact .taking response
  | taking response =>
    obtain rfl := Option.some.inj taken
    exact .quiet (.inr rfl)

/-- The callback overtakes the caller exactly if it locks the mutex first. -/
theorem InTurn.stepSubscriber (inTurn : client.InTurn)
    (taken : client.stepSubscriber = some next) :
    client.Heard .subscriber ∧ next.InTurn ∨ ¬ client.Heard .subscriber ∧ next.Overtaken := by
  cases inTurn with
  | quiet _ | unanswered _ | taking _ => cases taken
  | arrived response waits =>
    obtain rfl | rfl | rfl := waits
    · obtain rfl := Option.some.inj taken
      exact .inr ⟨fun heard => heard _ rfl rfl, .storing response⟩
    · cases taken
    · obtain rfl := Option.some.inj taken
      exact .inl ⟨fun _ _ awake => (nomatch awake), .storing response⟩
  | storing response =>
    obtain rfl := Option.some.inj taken
    exact .inl ⟨fun _ lock => (nomatch lock), .notifying response⟩
  | notifying response =>
    obtain rfl := Option.some.inj taken
    exact .inl ⟨fun _ lock => (nomatch lock), .notified response (.inl rfl)⟩
  | notified response done =>
    obtain rfl | rfl := done
    · obtain rfl := Option.some.inj taken
      exact .inl ⟨fun _ lock => (nomatch lock), .notified response (.inr rfl)⟩
    · cases taken

/-- A step keeps the turn exactly if it is heard. -/
theorem InTurn.step (inTurn : client.InTurn) (taken : client.step label = some next) :
    client.Heard label ∧ next.InTurn ∨ ¬ client.Heard label ∧ next.Overtaken := by
  cases label with
  | call => exact .inl ⟨trivial, inTurn.call taken⟩
  | respond response => exact .inl ⟨trivial, inTurn.respond taken⟩
  | caller => exact .inl ⟨trivial, inTurn.stepCaller taken⟩
  | subscriber => exact inTurn.stepSubscriber taken

/-- Nothing helps a caller that has been overtaken. -/
theorem Overtaken.step (overtaken : client.Overtaken) (taken : client.step label = some next) :
    next.Overtaken := by
  cases overtaken with
  | storing response =>
    cases label with
    | call | respond _ | caller => cases taken
    | subscriber =>
      obtain rfl := Option.some.inj taken
      exact .stored response (.inl rfl)
  | stored response holds =>
    obtain rfl | rfl := holds
    · cases label with
      | call | respond _ | caller => cases taken
      | subscriber =>
        obtain rfl := Option.some.inj taken
        exact .stored response (.inr rfl)
    · cases label with
      | call | respond _ | caller => cases taken
      | subscriber =>
        obtain rfl := Option.some.inj taken
        exact .missed response (.inl rfl)
  | missed response waits =>
    obtain rfl | rfl | rfl := waits
    · cases label with
      | call | respond _ | subscriber => cases taken
      | caller =>
        obtain rfl := Option.some.inj taken
        exact .missed response (.inr (.inl rfl))
    · cases label with
      | call | respond _ | subscriber => cases taken
      | caller =>
        obtain rfl := Option.some.inj taken
        exact .missed response (.inr (.inr rfl))
    · cases label <;> cases taken

/-- A run keeps the turn exactly if all of its steps are heard. -/
theorem inTurn_or_overtaken (inTurn : client.InTurn)
    (replayed : (untimedSystem Response).runFrom client labels = some final) :
    (untimedSystem Response).AdmitsFrom Heard client labels ∧ final.InTurn ∨
      ¬ (untimedSystem Response).AdmitsFrom Heard client labels ∧ final.Overtaken := by
  induction labels generalizing client with
  | nil =>
    obtain rfl := Option.some.inj replayed
    exact .inl ⟨trivial, inTurn⟩
  | cons label rest ih =>
    obtain ⟨next, taken, later⟩ := System.runFrom_cons_iff.mp replayed
    obtain ⟨heard, inTurn⟩ | ⟨unheard, overtaken⟩ := inTurn.step taken
    · obtain ⟨admitted, ends⟩ | ⟨refused, ends⟩ := ih inTurn later
      · refine .inl ⟨⟨heard, ?_⟩, ends⟩
        intro other taken'
        obtain rfl := Option.some.inj (taken.symm.trans taken')
        exact admitted
      · exact .inr ⟨fun whole => refused (whole.2 next taken), ends⟩
    · refine .inr ⟨fun whole => unheard whole.1, ?_⟩
      exact System.runFrom_invariant later Overtaken overtaken fun holds taken => holds.step taken

theorem InTurn.not_stranded (inTurn : client.InTurn) : ¬ client.Stranded := by
  rintro ⟨⟨reply, received, _⟩, asleep, unnotified⟩
  cases inTurn with
  | quiet _ | unanswered _ | arrived _ _ | storing _ => cases received
  | notifying _ => exact unnotified rfl
  | notified _ _ | taking _ => cases asleep

section Sleeping

variable {caller : CallerPc} {subscriber : SubscriberPc Response} {number : Nat}
  {results : List (Nat × Option (Reply Response))}

theorem leadsTo_of_stepCaller (taken : client.stepCaller = some next)
    (later : (untimedSystem Response).LeadsTo UntimedLabel.IsThread StrandedForGood next) :
    (untimedSystem Response).LeadsTo UntimedLabel.IsThread StrandedForGood client := by
  have mine : UntimedLabel.IsThread (.caller : UntimedLabel Response) := trivial
  have steps : (untimedSystem Response).step client .caller = some next := taken
  exact .step next mine steps later

theorem leadsTo_of_stepSubscriber (taken : client.stepSubscriber = some next)
    (later : (untimedSystem Response).LeadsTo UntimedLabel.IsThread StrandedForGood next) :
    (untimedSystem Response).LeadsTo UntimedLabel.IsThread StrandedForGood client := by
  have mine : UntimedLabel.IsThread (.subscriber : UntimedLabel Response) := trivial
  have steps : (untimedSystem Response).step client .subscriber = some next := taken
  exact .step next mine steps later

theorem leadsTo_of_missed (response : Response)
    (waits : caller = .lock ∨ caller = .wait ∨ caller = .asleep) :
    (untimedSystem Response).LeadsTo UntimedLabel.IsThread StrandedForGood
      ⟨caller, .idle, some ⟨number, response⟩, number, none, results⟩ := by
  have asleep : (untimedSystem Response).LeadsTo UntimedLabel.IsThread StrandedForGood
      ⟨.asleep, .idle, some ⟨number, response⟩, number, none, results⟩ :=
    .here ⟨⟨⟨_, rfl, rfl⟩, rfl, by simp⟩, fun label => by cases label <;> rfl⟩
  have waiting : (untimedSystem Response).LeadsTo UntimedLabel.IsThread StrandedForGood
      ⟨.wait, .idle, some ⟨number, response⟩, number, none, results⟩ :=
    leadsTo_of_stepCaller rfl asleep
  obtain rfl | rfl | rfl := waits
  · exact leadsTo_of_stepCaller rfl waiting
  · exact waiting
  · exact asleep

theorem leadsTo_of_stored (response : Response)
    (holds : subscriber = .notifyAll ∨ subscriber = .unlock) :
    (untimedSystem Response).LeadsTo UntimedLabel.IsThread StrandedForGood
      ⟨.lock, subscriber, some ⟨number, response⟩, number, none, results⟩ := by
  have unlocking : (untimedSystem Response).LeadsTo UntimedLabel.IsThread StrandedForGood
      ⟨.lock, .unlock, some ⟨number, response⟩, number, none, results⟩ :=
    leadsTo_of_stepSubscriber rfl (leadsTo_of_missed response (.inl rfl))
  obtain rfl | rfl := holds
  · exact leadsTo_of_stepSubscriber rfl unlocking
  · exact unlocking

end Sleeping

/-- A caller that has been overtaken goes to sleep for good. -/
theorem Overtaken.leadsTo (overtaken : client.Overtaken) :
    (untimedSystem Response).LeadsTo UntimedLabel.IsThread StrandedForGood client := by
  cases overtaken with
  | storing response =>
    exact leadsTo_of_stepSubscriber rfl (leadsTo_of_stored response (.inl rfl))
  | stored response holds => exact leadsTo_of_stored response holds
  | missed response waits => exact leadsTo_of_missed response waits

theorem stepSubscriber_results (taken : client.stepSubscriber = some next) :
    next.results = client.results := by
  unfold stepSubscriber at taken
  split at taken
  · cases taken
  · obtain ⟨_, taken⟩ := Option.ite_none_right_eq_some.mp taken
    obtain rfl := Option.some.inj taken
    rfl
  · obtain rfl := Option.some.inj taken
    rfl
  · obtain rfl := Option.some.inj taken
    rfl
  · obtain rfl := Option.some.inj taken
    rfl

theorem stepCaller_results (taken : client.stepCaller = some next) :
    next.results = client.results ∨ client.caller = .take ∧
      next.results = client.results ++ [(client.number, client.remoteResponse)] := by
  unfold stepCaller at taken
  split at taken
  · cases taken
  · cases taken
  · obtain ⟨_, taken⟩ := Option.ite_none_right_eq_some.mp taken
    obtain rfl := Option.some.inj taken
    exact .inl rfl
  · obtain rfl := Option.some.inj taken
    exact .inl rfl
  · obtain ⟨_, taken⟩ := Option.ite_none_right_eq_some.mp taken
    obtain rfl := Option.some.inj taken
    exact .inl rfl
  · next place =>
    obtain rfl := Option.some.inj taken
    exact .inr ⟨place, rfl⟩
  · obtain rfl := Option.some.inj taken
    exact .inl rfl

/-- Only a call that returns adds a result. -/
theorem step_results (taken : client.step label = some next) :
    next.results = client.results ∨ client.caller = .take ∧
      next.results = client.results ++ [(client.number, client.remoteResponse)] := by
  cases label with
  | call =>
    obtain ⟨_, taken⟩ := Option.ite_none_right_eq_some.mp taken
    obtain rfl := Option.some.inj taken
    exact .inl rfl
  | respond response =>
    simp only [UntimedClient.step] at taken
    split at taken
    · obtain rfl := Option.some.inj taken
      exact .inl rfl
    · cases taken
  | caller => exact stepCaller_results taken
  | subscriber => exact .inl (stepSubscriber_results taken)

theorem inTurn_new : (new : UntimedClient Response).InTurn := .quiet (.inl rfl)

end UntimedClient

open UntimedClient

theorem inTurn_or_overtaken_of_reachable {Response : Type} {client : UntimedClient Response}
    (reachable : (untimedSystem Response).Reachable client) :
    client.InTurn ∨ client.Overtaken := by
  refine reachable.invariant (fun client => client.InTurn ∨ client.Overtaken) (.inl inTurn_new) ?_
  rintro client label next (inTurn | overtaken) _ taken
  · exact (inTurn.step taken).imp And.right And.right
  · exact .inr (overtaken.step taken)

/-- A call that returns has the response to its own request. -/
theorem results_own {Response : Type} {client : UntimedClient Response}
    (reachable : (untimedSystem Response).Reachable client) :
    ∀ result ∈ client.results, ∃ response, result.2 = some ⟨result.1, response⟩ := by
  refine reachable.invariantFrom (fun client => ∀ result ∈ client.results,
    ∃ response, result.2 = some ⟨result.1, response⟩) (by simp [untimedSystem, new]) ?_
  intro client label next reachable own _ taken result member
  obtain same | ⟨takes, results⟩ := step_results taken
  · exact own result (same ▸ member)
  · rw [results, List.mem_append, List.mem_singleton] at member
    obtain member | rfl := member
    · exact own result member
    · obtain inTurn | overtaken := inTurn_or_overtaken_of_reachable reachable
      · cases inTurn with
        | taking response => exact ⟨response, rfl⟩
        | quiet out =>
          obtain rfl := takes
          simp at out
        | unanswered waits | arrived _ waits =>
          obtain rfl := takes
          simp at waits
        | storing _ | notifying _ | notified _ _ => cases takes
      · cases overtaken with
        | storing _ | stored _ _ => cases takes
        | missed _ waits =>
          obtain rfl := takes
          simp at waits

/-- In a run in which the callback never locks the mutex between the publication of a request and
the lock of its caller, no call is ever stranded. After any other run the threads of the client can
go on to where one is, and stays. -/
theorem not_stranded_of_heard_calls (Response : Type) :
    (∀ client, (untimedSystem Response).ReachableUnder Heard client → ¬ client.Stranded) ∧
    ∀ labels client, (untimedSystem Response).run labels = some client →
      ¬ (untimedSystem Response).AdmitsFrom Heard (untimedSystem Response).initial labels →
      (untimedSystem Response).LeadsTo UntimedLabel.IsThread StrandedForGood client := by
  constructor
  · intro client reachable
    have inTurn : client.InTurn := by
      refine reachable.invariant InTurn inTurn_new ?_
      intro client label next inTurn heard taken
      obtain ⟨_, kept⟩ | ⟨unheard, _⟩ := inTurn.step taken
      · exact kept
      · exact absurd heard unheard
    exact inTurn.not_stranded
  · intro labels client replayed unheard
    obtain ⟨admitted, _⟩ | ⟨_, overtaken⟩ := inTurn_or_overtaken inTurn_new replayed
    · exact absurd admitted unheard
    · exact overtaken.leadsTo

/-- A response that arrives while the caller sleeps. -/
theorem not_stranded_slow_response : ∃ client, (untimedSystem Unit).run [.call, .caller, .caller,
      .respond (), .subscriber, .subscriber, .subscriber, .subscriber, .caller, .caller] =
        some client ∧ client.results = [(1, some ⟨1, ()⟩)] ∧ ¬ client.Stranded := by
  have admitted : (untimedSystem Unit).AdmitsFrom Heard (untimedSystem Unit).initial
      [.call, .caller, .caller, .respond (), .subscriber, .subscriber, .subscriber, .subscriber,
        .caller, .caller] := by
    refine ⟨trivial, ?_⟩
    rintro _ ⟨⟩
    refine ⟨trivial, ?_⟩
    rintro _ ⟨⟩
    refine ⟨trivial, ?_⟩
    rintro _ ⟨⟩
    refine ⟨trivial, ?_⟩
    rintro _ ⟨⟩
    refine ⟨fun _ _ => CallerPc.noConfusion, ?_⟩
    rintro _ ⟨⟩
    refine ⟨fun _ placed => (by cases placed), ?_⟩
    rintro _ ⟨⟩
    refine ⟨fun _ placed => (by cases placed), ?_⟩
    rintro _ ⟨⟩
    refine ⟨fun _ placed => (by cases placed), ?_⟩
    rintro _ ⟨⟩
    refine ⟨trivial, ?_⟩
    rintro _ ⟨⟩
    refine ⟨trivial, ?_⟩
    rintro _ ⟨⟩
    trivial
  have reachable := System.ReachableUnder.initial.runFrom admitted rfl
  exact ⟨_, rfl, rfl, (not_stranded_of_heard_calls Unit).1 _ reachable⟩

/-- A response that arrives before the caller has locked the mutex. -/
theorem stranded_fast_response : ∃ client,
    (untimedSystem Unit).run [.call, .respond (), .subscriber, .subscriber, .subscriber,
      .subscriber, .caller, .caller] = some client ∧ client.StrandedForGood := by
  refine ⟨_, rfl, ⟨⟨⟨1, ()⟩, rfl, rfl⟩, rfl, by decide⟩, ?_⟩
  intro label
  cases label <;> rfl

end Dls2.Service
