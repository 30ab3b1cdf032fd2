import Dls2.Lib.Pending
import Dls2.Lib.Refinement
import Dls2.Service.UntimedCall

/-!
# Service calls with their mutexes

Any number of threads call any number of clients, and the callbacks of their subscribers run beside
them. Each client has its `response_mutex`. To lock and to unlock it, to go to sleep, to store a
response and to notify are steps of their own here; in the service calls of `ServiceClient` one step
covers what happens under the lock.

The threads refine the service calls. A callback takes its coarse step when it stores the response,
and the callers that are asleep then count as awake although they are notified only in the next
step. That no caller is between its lock and its sleep at that moment is due to the mutex.
-/

namespace Dls2.Service

open Dls2.Pending Dls2.Transition

/-- A thread in `ServiceClient::call`. One that has returned stays, idle. -/
structure CallerThread (Client : Type) where
  client : Client
  number : Nat
  pc : CallerPc
deriving DecidableEq, Repr

/-- The place of a response in the callback of a subscriber. -/
inductive DeliveryPc where
  | travelling
  | lock
  | store
  | notifyAll
  | unlock
  | returned
deriving DecidableEq, Repr

/-- A response to one subscriber. It stays when its callback has returned. -/
structure Delivery (Client Response : Type) where
  client : Client
  reply : Reply Response
  pc : DeliveryPc
deriving DecidableEq, Repr

def DeliveryPc.holdsMutex : DeliveryPc → Bool
  | .store | .notifyAll | .unlock => true
  | .travelling | .lock | .returned => false

/-- A server, and its clients with the threads in them. `computed` and `results` are the records of
the service calls. -/
structure ClientThreads (Client Request Response Server : Type) where
  server : Server
  requests : List (Nat × Request)
  deliveries : List (Delivery Client Response)
  remoteResponse : Client → Option (Reply Response)
  callers : List (CallerThread Client)
  nextNumber : Nat
  computed : List (Reply Response)
  results : List (Nat × Reply Response)

inductive ThreadLabel (Client Request Server : Type) where
  /-- A thread calls the service and publishes its request. -/
  | call (client : Client) (request : Request)
  /-- The next step of the thread with this index. -/
  | caller (index : Nat)
  /-- The time of the thread with this index is over, or it wakes spuriously. -/
  | wake (index : Nat)
  /-- The server answers the request with this index. -/
  | serve (index : Nat)
  /-- The next step of the response with this index. -/
  | delivery (index : Nat)
  /-- The server changes for another reason. -/
  | change (server : Server)

namespace ClientThreads

variable {Client Request Response Server : Type}

def serve (callback : Request → Server → Option (Response × Server)) (subscribers : List Client)
    (threads : ClientThreads Client Request Response Server) (index : Nat)
    (message : Nat × Request) : Option (ClientThreads Client Request Response Server) :=
  (callback message.2 threads.server).map fun (response, server) =>
    { threads with
      server := server
      requests := threads.requests.eraseIdx index
      deliveries := threads.deliveries ++
        subscribers.map fun client => ⟨client, ⟨message.1, response⟩, .travelling⟩
      computed := threads.computed ++ [⟨message.1, response⟩] }

/-- A thread goes on. -/
def moveCaller (threads : ClientThreads Client Request Response Server) (index : Nat)
    (caller : CallerThread Client) (pc : CallerPc) :
    ClientThreads Client Request Response Server :=
  { threads with callers := threads.callers.set index { caller with pc := pc } }

/-- A response goes on. -/
def moveDelivery (threads : ClientThreads Client Request Response Server) (index : Nat)
    (delivery : Delivery Client Response) (pc : DeliveryPc) :
    ClientThreads Client Request Response Server :=
  { threads with deliveries := threads.deliveries.set index { delivery with pc := pc } }

variable [DecidableEq Client]

/-- Nobody holds the `response_mutex` of the client. -/
def mutexFree (threads : ClientThreads Client Request Response Server) (client : Client) : Bool :=
  threads.callers.all (fun caller => !(caller.client = client && caller.pc.holdsMutex)) &&
    threads.deliveries.all fun delivery => !(delivery.client = client && delivery.pc.holdsMutex)

/-- The end of `call`. -/
def take (threads : ClientThreads Client Request Response Server) (index : Nat)
    (caller : CallerThread Client) : ClientThreads Client Request Response Server :=
  match threads.remoteResponse caller.client with
  | none => threads.moveCaller index caller .unlock
  | some reply =>
    { threads.moveCaller index caller .unlock with
      remoteResponse := Function.update threads.remoteResponse caller.client none
      results := threads.results ++ [(caller.number, reply)] }

def stepCaller (threads : ClientThreads Client Request Response Server) (index : Nat)
    (caller : CallerThread Client) : Option (ClientThreads Client Request Response Server) :=
  match caller.pc with
  | .idle | .asleep => none
  | .lock =>
    if threads.mutexFree caller.client then some (threads.moveCaller index caller .wait) else none
  | .wait => some (threads.moveCaller index caller .asleep)
  | .notified =>
    if threads.mutexFree caller.client then some (threads.moveCaller index caller .take) else none
  | .take => some (threads.take index caller)
  | .unlock => some (threads.moveCaller index caller .idle)

/-- `notify_all` on the condition variable of one client. -/
def notifyCaller (client : Client) (caller : CallerThread Client) : CallerThread Client :=
  if caller.client = client then { caller with pc := caller.pc.notify } else caller

def stepDelivery (threads : ClientThreads Client Request Response Server) (index : Nat)
    (delivery : Delivery Client Response) :
    Option (ClientThreads Client Request Response Server) :=
  match delivery.pc with
  | .travelling => some (threads.moveDelivery index delivery .lock)
  | .lock =>
    if threads.mutexFree delivery.client then some (threads.moveDelivery index delivery .store)
    else none
  | .store =>
    some { threads.moveDelivery index delivery .notifyAll with
      remoteResponse :=
        Function.update threads.remoteResponse delivery.client (some delivery.reply) }
  | .notifyAll =>
    some { threads.moveDelivery index delivery .unlock with
      callers := threads.callers.map (notifyCaller delivery.client) }
  | .unlock => some (threads.moveDelivery index delivery .returned)
  | .returned => none

def step (callback : Request → Server → Option (Response × Server)) (subscribers : List Client)
    (threads : ClientThreads Client Request Response Server) :
    ThreadLabel Client Request Server → Option (ClientThreads Client Request Response Server)
  | .call client request =>
    if client ∈ subscribers then
      some { threads with
        requests := threads.requests ++ [(threads.nextNumber, request)]
        callers := threads.callers ++ [⟨client, threads.nextNumber, .lock⟩]
        nextNumber := threads.nextNumber + 1 }
    else none
  | .caller index => threads.callers[index]?.bind (threads.stepCaller index)
  | .wake index => threads.callers[index]?.bind fun caller =>
      if caller.pc = .asleep then some (threads.moveCaller index caller .notified) else none
  | .serve index => threads.requests[index]?.bind (threads.serve callback subscribers index)
  | .delivery index => threads.deliveries[index]?.bind (threads.stepDelivery index)
  | .change server => some { threads with server := server }

end ClientThreads

/-- A server in some state, and clients that nobody has called yet. -/
def threadSystem {Client Request Response Server : Type} [DecidableEq Client]
    (callback : Request → Server → Option (Response × Server)) (subscribers : List Client)
    (server : Server) :
    System (ClientThreads Client Request Response Server) (ThreadLabel Client Request Server) where
  initial := ⟨server, [], [], fun _ => none, [], 0, [], []⟩
  step := ClientThreads.step callback subscribers

/-! ### The threads as service calls -/

/-- The place of a caller in the service calls, where a response to its client may have been stored
and not been notified. -/
def CallerPc.place (stored : Bool) : CallerPc → Option CallPlace
  | .idle | .unlock => none
  | .lock => some .sent
  | .wait => some .asleep
  | .asleep => some (if stored then .woken else .asleep)
  | .notified | .take => some .woken

/-- A response is in flight until it is stored. -/
def Delivery.inFlight {Client Response : Type} (delivery : Delivery Client Response) :
    Option (Client × Reply Response) :=
  match delivery.pc with
  | .travelling | .lock | .store => some (delivery.client, delivery.reply)
  | .notifyAll | .unlock | .returned => none

def CallerThread.call {Client : Type} (stored : Client → Bool) (caller : CallerThread Client) :
    Option (ClientCall Client) :=
  (caller.pc.place (stored caller.client)).map fun place => ⟨caller.client, caller.number, place⟩

namespace ClientThreads

variable {Client Request Response Server : Type} [DecidableEq Client]

/-- A callback of the client is about to notify. -/
def stored (threads : ClientThreads Client Request Response Server) (client : Client) : Bool :=
  threads.deliveries.any fun delivery => delivery.client = client && delivery.pc = .notifyAll

def exchange (threads : ClientThreads Client Request Response Server) :
    Exchange Client Request Response Server where
  server := threads.server
  requests := threads.requests
  inFlight := threads.deliveries.filterMap Delivery.inFlight
  remoteResponse := threads.remoteResponse
  calls := threads.callers.filterMap (CallerThread.call threads.stored)
  nextNumber := threads.nextNumber
  computed := threads.computed
  results := threads.results

/-- Where a thread is among the calls in progress. -/
def callIndex (threads : ClientThreads Client Request Response Server) (index : Nat) : Nat :=
  position (CallerThread.call threads.stored) threads.callers index

/-- Where a response is among those in flight. -/
def flightIndex (threads : ClientThreads Client Request Response Server) (index : Nat) : Nat :=
  position Delivery.inFlight threads.deliveries index

/-- What a step of a thread means for its call. -/
def callerLabels (threads : ClientThreads Client Request Response Server) (index : Nat)
    (caller : CallerThread Client) : List (ServiceLabel Client Request Server) :=
  match caller.pc with
  | .lock => [.block (threads.callIndex index)]
  | .take => [.take (threads.callIndex index)]
  | .idle | .wait | .asleep | .notified | .unlock => []

/-- The steps of the service calls for one step of the threads. -/
def labels (threads : ClientThreads Client Request Response Server) :
    ThreadLabel Client Request Server → List (ServiceLabel Client Request Server)
  | .call client request => [.call client request]
  | .caller index => threads.callers[index]?.elim [] (threads.callerLabels index)
  | .wake index => threads.callers[index]?.elim [] fun caller =>
      if threads.stored caller.client then [] else [.wake (threads.callIndex index)]
  | .serve index => [.serve index]
  | .delivery index => threads.deliveries[index]?.elim [] fun delivery =>
      if delivery.pc = .store then [.deliver (threads.flightIndex index)] else []
  | .change server => [.change server]

/-- While a callback holds the mutex of a client, no caller does. -/
def Exclusive (threads : ClientThreads Client Request Response Server) : Prop :=
  ∀ delivery ∈ threads.deliveries, delivery.pc.holdsMutex = true →
    ∀ caller ∈ threads.callers, caller.client = delivery.client → caller.pc.holdsMutex = false

variable {callback : Request → Server → Option (Response × Server)} {subscribers : List Client}
  {threads next : ClientThreads Client Request Response Server} {index : Nat}
  {caller : CallerThread Client} {delivery : Delivery Client Response}
  {label : ThreadLabel Client Request Server}

/-! ### What one step does -/

/-- The steps of a caller. -/
inductive CallerStep (threads : ClientThreads Client Request Response Server) (index : Nat)
    (caller : CallerThread Client) : ClientThreads Client Request Response Server → Prop where
  | lock (place : caller.pc = .lock) (free : threads.mutexFree caller.client = true) :
      CallerStep threads index caller (threads.moveCaller index caller .wait)
  | sleep (place : caller.pc = .wait) :
      CallerStep threads index caller (threads.moveCaller index caller .asleep)
  | relock (place : caller.pc = .notified) (free : threads.mutexFree caller.client = true) :
      CallerStep threads index caller (threads.moveCaller index caller .take)
  | take (place : caller.pc = .take) : CallerStep threads index caller (threads.take index caller)
  | unlock (place : caller.pc = .unlock) :
      CallerStep threads index caller (threads.moveCaller index caller .idle)

theorem stepCaller_cases (taken : threads.stepCaller index caller = some next) :
    CallerStep threads index caller next := by
  unfold ClientThreads.stepCaller at taken
  cases place : caller.pc with
  | idle | asleep => simp [place] at taken
  | lock =>
    obtain ⟨free, rfl⟩ := by simpa [place] using taken
    exact .lock place free
  | wait =>
    obtain rfl := by simpa [place] using taken
    exact .sleep place
  | notified =>
    obtain ⟨free, rfl⟩ := by simpa [place] using taken
    exact .relock place free
  | take =>
    obtain rfl := by simpa [place] using taken
    exact .take place
  | unlock =>
    obtain rfl := by simpa [place] using taken
    exact .unlock place

/-- The steps of a callback. -/
inductive DeliveryStep (threads : ClientThreads Client Request Response Server) (index : Nat)
    (delivery : Delivery Client Response) :
    ClientThreads Client Request Response Server → Prop where
  | arrive (place : delivery.pc = .travelling) :
      DeliveryStep threads index delivery (threads.moveDelivery index delivery .lock)
  | lock (place : delivery.pc = .lock) (free : threads.mutexFree delivery.client = true) :
      DeliveryStep threads index delivery (threads.moveDelivery index delivery .store)
  | store (place : delivery.pc = .store) :
      DeliveryStep threads index delivery { threads.moveDelivery index delivery .notifyAll with
        remoteResponse :=
          Function.update threads.remoteResponse delivery.client (some delivery.reply) }
  | notifyAll (place : delivery.pc = .notifyAll) :
      DeliveryStep threads index delivery { threads.moveDelivery index delivery .unlock with
        callers := threads.callers.map (notifyCaller delivery.client) }
  | unlock (place : delivery.pc = .unlock) :
      DeliveryStep threads index delivery (threads.moveDelivery index delivery .returned)

theorem stepDelivery_cases (taken : threads.stepDelivery index delivery = some next) :
    DeliveryStep threads index delivery next := by
  unfold ClientThreads.stepDelivery at taken
  cases place : delivery.pc with
  | returned => simp [place] at taken
  | travelling =>
    obtain rfl := by simpa [place] using taken
    exact .arrive place
  | lock =>
    obtain ⟨free, rfl⟩ := by simpa [place] using taken
    exact .lock place free
  | store =>
    obtain rfl := by simpa [place] using taken
    exact .store place
  | notifyAll =>
    obtain rfl := by simpa [place] using taken
    exact .notifyAll place
  | unlock =>
    obtain rfl := by simpa [place] using taken
    exact .unlock place

/-! ### The mutex -/

theorem callers_of_mutexFree {client : Client} (free : threads.mutexFree client = true) :
    ∀ caller ∈ threads.callers, caller.client = client → caller.pc.holdsMutex = false := by
  intro caller among same
  have test := List.all_eq_true.mp (Bool.and_eq_true_iff.mp free).1 caller among
  simpa [same] using test

theorem deliveries_of_mutexFree {client : Client} (free : threads.mutexFree client = true) :
    ∀ delivery ∈ threads.deliveries, delivery.client = client →
      delivery.pc.holdsMutex = false := by
  intro delivery among same
  have test := List.all_eq_true.mp (Bool.and_eq_true_iff.mp free).2 delivery among
  simpa [same] using test

/-- A thread locks the mutex only while it is free. -/
theorem Exclusive.moveCaller (exclusive : threads.Exclusive) {pc : CallerPc}
    (atIndex : threads.callers[index]? = some caller)
    (locks : pc.holdsMutex = true → caller.pc.holdsMutex = true ∨
      threads.mutexFree caller.client = true) :
    (threads.moveCaller index caller pc).Exclusive := by
  intro delivery among holds other among' same
  obtain among' | rfl := List.mem_or_eq_of_mem_set among'
  · exact exclusive delivery among holds other among' same
  · by_contra held
    obtain before | free := locks (Bool.not_eq_false _ ▸ held)
    · have out := exclusive delivery among holds caller (List.mem_of_getElem? atIndex) same
      exact Bool.false_ne_true (out.symm.trans before)
    · have out := deliveries_of_mutexFree free delivery among same.symm
      exact Bool.false_ne_true (out.symm.trans holds)

theorem Exclusive.moveDelivery (exclusive : threads.Exclusive) {pc : DeliveryPc}
    (atIndex : threads.deliveries[index]? = some delivery)
    (locks : pc.holdsMutex = true → delivery.pc.holdsMutex = true ∨
      threads.mutexFree delivery.client = true) :
    (threads.moveDelivery index delivery pc).Exclusive := by
  intro other among holds caller among' same
  obtain among | rfl := List.mem_or_eq_of_mem_set among
  · exact exclusive other among holds caller among' same
  · obtain before | free := locks holds
    · exact exclusive delivery (List.mem_of_getElem? atIndex) before caller among' same
    · exact callers_of_mutexFree free caller among' same

theorem notifyCaller_client (client : Client) (caller : CallerThread Client) :
    (notifyCaller client caller).client = caller.client := by
  unfold notifyCaller
  split <;> rfl

theorem notifyCaller_holdsMutex (client : Client) (caller : CallerThread Client) :
    (notifyCaller client caller).pc.holdsMutex = caller.pc.holdsMutex := by
  obtain ⟨owner, number, pc⟩ := caller
  unfold notifyCaller
  split
  · cases pc <;> rfl
  · rfl

theorem Exclusive.stepCaller (exclusive : threads.Exclusive)
    (atIndex : threads.callers[index]? = some caller)
    (taken : threads.stepCaller index caller = some next) : next.Exclusive := by
  cases stepCaller_cases taken with
  | lock place free | relock place free => exact exclusive.moveCaller atIndex fun _ => .inr free
  | sleep place | unlock place =>
    exact exclusive.moveCaller atIndex fun holds => absurd holds Bool.false_ne_true
  | take place =>
    have moved : (threads.moveCaller index caller .unlock).Exclusive :=
      exclusive.moveCaller atIndex fun _ => .inl (by rw [place]; rfl)
    unfold ClientThreads.take
    split <;> exact moved

theorem Exclusive.stepDelivery (exclusive : threads.Exclusive)
    (atIndex : threads.deliveries[index]? = some delivery)
    (taken : threads.stepDelivery index delivery = some next) : next.Exclusive := by
  cases stepDelivery_cases taken with
  | arrive place | unlock place =>
    exact exclusive.moveDelivery atIndex fun holds => absurd holds Bool.false_ne_true
  | lock place free => exact exclusive.moveDelivery atIndex fun _ => .inr free
  | store place =>
    have moved : (threads.moveDelivery index delivery .notifyAll).Exclusive :=
      exclusive.moveDelivery atIndex fun _ => .inl (by rw [place]; rfl)
    exact moved
  | notifyAll place =>
    have moved : (threads.moveDelivery index delivery .unlock).Exclusive :=
      exclusive.moveDelivery atIndex fun _ => .inl (by rw [place]; rfl)
    intro other among holds notified among' same
    obtain ⟨caller, member, rfl⟩ := List.mem_map.mp among'
    rw [notifyCaller_holdsMutex]
    exact moved other among holds caller member (notifyCaller_client _ caller ▸ same)

/-- Every step keeps callbacks and callers out of each other's way. -/
theorem Exclusive.step (exclusive : threads.Exclusive)
    (taken : threads.step callback subscribers label = some next) : next.Exclusive := by
  cases label with
  | call client request =>
    obtain ⟨-, taken⟩ := Option.ite_none_right_eq_some.mp taken
    obtain rfl := Option.some.inj taken
    intro delivery among holds caller among' same
    obtain among' | among' := List.mem_append.mp among'
    · exact exclusive delivery among holds caller among' same
    · rw [List.mem_singleton.mp among']
      rfl
  | caller index =>
    obtain ⟨caller, atIndex, taken⟩ := Option.bind_eq_some_iff.mp taken
    exact exclusive.stepCaller atIndex taken
  | wake index =>
    obtain ⟨caller, atIndex, taken⟩ := Option.bind_eq_some_iff.mp taken
    obtain ⟨-, taken⟩ := Option.ite_none_right_eq_some.mp taken
    obtain rfl := Option.some.inj taken
    exact exclusive.moveCaller atIndex fun holds => absurd holds Bool.false_ne_true
  | serve index =>
    obtain ⟨message, -, taken⟩ := Option.bind_eq_some_iff.mp taken
    obtain ⟨⟨response, server⟩, -, rfl⟩ := Option.map_eq_some_iff.mp taken
    intro delivery among holds
    obtain among | among := List.mem_append.mp among
    · exact exclusive delivery among holds
    · obtain ⟨client, -, rfl⟩ := List.mem_map.mp among
      exact absurd holds Bool.false_ne_true
  | delivery index =>
    obtain ⟨delivery, atIndex, taken⟩ := Option.bind_eq_some_iff.mp taken
    exact exclusive.stepDelivery atIndex taken
  | change server =>
    obtain rfl := Option.some.inj taken
    exact exclusive

/-! ### One step of the threads -/

/-- A caller whose place in the service calls stays the same. -/
theorem exchange_moveCaller_of_eq {pc : CallerPc} (atIndex : threads.callers[index]? = some caller)
    (same : pc.place (threads.stored caller.client) =
      caller.pc.place (threads.stored caller.client)) :
    (threads.moveCaller index caller pc).exchange = threads.exchange := by
  have calls : (threads.callers.set index { caller with pc := pc }).filterMap
      (CallerThread.call threads.stored) =
        threads.callers.filterMap (CallerThread.call threads.stored) :=
    filterMap_set_of_eq atIndex (by simp [CallerThread.call, same])
  exact congrArg (fun calls => { threads.exchange with calls := calls }) calls

/-- The call of a thread is found among the calls in progress. -/
theorem exchange_calls_callIndex {place : CallPlace}
    (atIndex : threads.callers[index]? = some caller)
    (seen : caller.pc.place (threads.stored caller.client) = some place) :
    threads.exchange.calls[threads.callIndex index]? =
      some ⟨caller.client, caller.number, place⟩ :=
  getElem?_position atIndex (by simp [CallerThread.call, seen])

/-- A caller that goes on in the service calls. -/
theorem exchange_moveCaller {pc : CallerPc} {source target : CallPlace}
    (atIndex : threads.callers[index]? = some caller)
    (before : caller.pc.place (threads.stored caller.client) = some source)
    (after : pc.place (threads.stored caller.client) = some target) :
    threads.exchange.moveCall (threads.callIndex index) source target =
      some (threads.moveCaller index caller pc).exchange := by
  have seen : caller.call threads.stored = some ⟨caller.client, caller.number, source⟩ := by
    simp [CallerThread.call, before]
  have moves : CallerThread.call threads.stored { caller with pc := pc } =
      some ⟨caller.client, caller.number, target⟩ := by
    simp [CallerThread.call, after]
  have calls := filterMap_set_of_some atIndex seen moves
  rw [Exchange.moveCall_of_place (exchange_calls_callIndex atIndex before) rfl]
  exact congrArg (fun calls => some { threads.exchange with calls := calls }) calls.symm

/-- The end of a call. -/
theorem exchange_take (atIndex : threads.callers[index]? = some caller)
    (taking : caller.pc = .take) :
    threads.exchange.take (threads.callIndex index) ⟨caller.client, caller.number, .woken⟩ =
      (threads.take index caller).exchange := by
  have seen : caller.call threads.stored = some ⟨caller.client, caller.number, .woken⟩ := by
    simp [CallerThread.call, taking, CallerPc.place]
  have gone : CallerThread.call threads.stored { caller with pc := .unlock } = none := rfl
  have calls := filterMap_set_of_none atIndex seen gone
  unfold Exchange.take ClientThreads.take
  cases kept : threads.remoteResponse caller.client with
  | none =>
    simp only [exchange, kept]
    exact congrArg (fun calls => { threads.exchange with calls := calls }) calls.symm
  | some reply =>
    simp only [exchange, kept]
    refine congrArg (fun calls => { threads.exchange with
      calls := calls
      remoteResponse := Function.update threads.remoteResponse caller.client none
      results := threads.results ++ [(caller.number, reply)] }) calls.symm

theorem stored_moveDelivery {pc : DeliveryPc}
    (atIndex : threads.deliveries[index]? = some delivery) {client : Client}
    (same : delivery.client = client → (pc = .notifyAll ↔ delivery.pc = .notifyAll)) :
    (threads.moveDelivery index delivery pc).stored client = threads.stored client := by
  refine any_set_of_eq atIndex ?_
  by_cases owner : delivery.client = client
  · simp [owner, same owner]
  · simp [owner]

/-- A response that the service calls do not see going on. -/
theorem exchange_moveDelivery_of_eq {pc : DeliveryPc}
    (atIndex : threads.deliveries[index]? = some delivery)
    (notifies : pc = .notifyAll ↔ delivery.pc = .notifyAll)
    (same : Delivery.inFlight { delivery with pc := pc } = delivery.inFlight) :
    (threads.moveDelivery index delivery pc).exchange = threads.exchange := by
  have flight := filterMap_set_of_eq atIndex same
  have stored : (threads.moveDelivery index delivery pc).stored = threads.stored :=
    funext fun client => stored_moveDelivery atIndex fun _ => notifies
  unfold exchange
  rw [stored]
  exact congrArg (fun inFlight => { threads.exchange with inFlight := inFlight }) flight

/-- Storing a response wakes the callers that are asleep. -/
theorem call_update_stored {stored : Client → Bool} {client : Client}
    (awake : caller.client = client → caller.pc.holdsMutex = false) :
    (caller.call stored).map (Exchange.notifyAll client) =
      caller.call (Function.update stored client true) := by
  obtain ⟨owner, number, pc⟩ := caller
  by_cases same : owner = client
  · subst same
    cases pc with
    | wait => exact absurd (awake rfl).symm Bool.false_ne_true
    | asleep =>
      cases stored owner <;>
        simp_all [CallerThread.call, CallerPc.place, Exchange.notifyAll]
    | idle | lock | notified | take | unlock =>
      simp [CallerThread.call, CallerPc.place, Exchange.notifyAll]
  · have untouched : Function.update stored client true owner = stored owner :=
      Function.update_of_ne same _ _
    simp only [CallerThread.call, untouched, Option.map_map]
    congr 1
    funext place
    simp [Exchange.notifyAll, same]

/-- A notification leaves awake those that count as awake. -/
theorem call_notifyCaller {stored stored' : Client → Bool} {client : Client}
    (wakes : stored client = true)
    (same : ∀ other, other ≠ client → stored' other = stored other) :
    (notifyCaller client caller).call stored' = caller.call stored := by
  obtain ⟨owner, number, pc⟩ := caller
  by_cases mine : owner = client
  · subst mine
    cases pc <;> simp [notifyCaller, CallerThread.call, CallerPc.notify, CallerPc.place, wakes]
  · simp [notifyCaller, CallerThread.call, mine, same owner mine]

/-- The callback of a subscriber stores its response. -/
theorem exchange_store (exclusive : threads.Exclusive)
    (atIndex : threads.deliveries[index]? = some delivery) (storing : delivery.pc = .store) :
    threads.exchange.deliver (threads.flightIndex index) (delivery.client, delivery.reply) =
      exchange { threads.moveDelivery index delivery .notifyAll with
        remoteResponse :=
          Function.update threads.remoteResponse delivery.client (some delivery.reply) } := by
  have seen : delivery.inFlight = some (delivery.client, delivery.reply) := by
    simp [Delivery.inFlight, storing]
  have gone : Delivery.inFlight { delivery with pc := .notifyAll } = none := rfl
  have flight := filterMap_set_of_none atIndex seen gone
  have stored : (threads.moveDelivery index delivery .notifyAll).stored =
      Function.update threads.stored delivery.client true := by
    funext client
    by_cases owner : client = delivery.client
    · subst owner
      rw [Function.update_self]
      exact List.any_eq_true.mpr ⟨_, mem_set_self atIndex, by simp⟩
    · rw [Function.update_of_ne owner]
      exact stored_moveDelivery atIndex fun same => absurd same.symm owner
  have calls : threads.exchange.calls.map (Exchange.notifyAll delivery.client) =
      threads.callers.filterMap
        (CallerThread.call (threads.moveDelivery index delivery .notifyAll).stored) := by
    rw [stored]
    refine (List.map_filterMap).trans (List.filterMap_congr fun caller among => ?_)
    refine call_update_stored fun same => ?_
    exact exclusive delivery (List.mem_of_getElem? atIndex) (by rw [storing]; rfl) caller among same
  unfold Exchange.deliver
  rw [calls]
  exact congrArg (fun inFlight => { threads.exchange with
    inFlight := inFlight
    remoteResponse := Function.update threads.remoteResponse delivery.client (some delivery.reply)
    calls := threads.callers.filterMap
      (CallerThread.call (threads.moveDelivery index delivery .notifyAll).stored) }) flight.symm

/-- The callback of a subscriber notifies the callers. -/
theorem exchange_notifyAll (atIndex : threads.deliveries[index]? = some delivery)
    (notifying : delivery.pc = .notifyAll) :
    exchange { threads.moveDelivery index delivery .unlock with
      callers := threads.callers.map (notifyCaller delivery.client) } = threads.exchange := by
  have flight : (threads.deliveries.set index { delivery with pc := .unlock }).filterMap
      Delivery.inFlight = threads.deliveries.filterMap Delivery.inFlight :=
    filterMap_set_of_eq atIndex (by simp [Delivery.inFlight, notifying])
  have wakes : threads.stored delivery.client = true :=
    List.any_eq_true.mpr ⟨delivery, List.mem_of_getElem? atIndex, by simp [notifying]⟩
  have calls : (threads.callers.map (notifyCaller delivery.client)).filterMap
      (CallerThread.call (threads.moveDelivery index delivery .unlock).stored) =
        threads.callers.filterMap (CallerThread.call threads.stored) := by
    refine (List.filterMap_map).trans (List.filterMap_congr fun caller _ => ?_)
    refine call_notifyCaller wakes fun other different => ?_
    exact stored_moveDelivery atIndex fun same => absurd same.symm different
  calc exchange { threads.moveDelivery index delivery .unlock with
        callers := threads.callers.map (notifyCaller delivery.client) }
      = { threads.exchange with
          inFlight := (threads.deliveries.set index
            { delivery with pc := .unlock }).filterMap Delivery.inFlight
          calls := (threads.callers.map (notifyCaller delivery.client)).filterMap
            (CallerThread.call (threads.moveDelivery index delivery .unlock).stored) } := rfl
    _ = threads.exchange := by
        rw [flight, calls]
        rfl

/-- A caller that is about to sleep cannot miss a notification. -/
theorem Exclusive.not_stored (exclusive : threads.Exclusive) (among : caller ∈ threads.callers)
    (holds : caller.pc.holdsMutex = true) : threads.stored caller.client = false := by
  by_contra notified
  obtain ⟨delivery, member, test⟩ := List.any_eq_true.mp (Bool.not_eq_false _ ▸ notified)
  obtain ⟨owner, notifying⟩ : delivery.client = caller.client ∧ delivery.pc = .notifyAll := by
    simpa using test
  have out := exclusive delivery member (by rw [notifying]; rfl) caller among owner.symm
  exact Bool.false_ne_true (out.symm.trans holds)

theorem runFrom_callerLabels {server : Server} (exclusive : threads.Exclusive)
    (atIndex : threads.callers[index]? = some caller)
    (taken : threads.stepCaller index caller = some next) :
    (exchangeSystem callback subscribers server).runFrom threads.exchange
      (threads.callerLabels index caller) = some next.exchange := by
  unfold ClientThreads.callerLabels
  cases stepCaller_cases taken with
  | lock place free =>
    have moves : threads.exchange.moveCall (threads.callIndex index) .sent .asleep =
        some (threads.moveCaller index caller .wait).exchange :=
      exchange_moveCaller atIndex (by rw [place]; rfl) rfl
    rw [place]
    exact Option.bind_eq_some_iff.mpr ⟨_, moves, rfl⟩
  | sleep place =>
    have unheard := exclusive.not_stored (List.mem_of_getElem? atIndex) (by rw [place]; rfl)
    rw [place]
    refine congrArg some (exchange_moveCaller_of_eq atIndex ?_).symm
    rw [place, unheard]
    rfl
  | relock place free =>
    rw [place]
    exact congrArg some (exchange_moveCaller_of_eq atIndex (by rw [place]; rfl)).symm
  | take place =>
    have found : threads.exchange.calls[threads.callIndex index]? =
        some ⟨caller.client, caller.number, .woken⟩ :=
      exchange_calls_callIndex atIndex (by rw [place]; rfl)
    have returns : threads.exchange.step callback subscribers (.take (threads.callIndex index)) =
        some (threads.take index caller).exchange := by
      simp [Exchange.step, found, exchange_take atIndex place]
    rw [place]
    exact Option.bind_eq_some_iff.mpr ⟨_, returns, rfl⟩
  | unlock place =>
    rw [place]
    exact congrArg some (exchange_moveCaller_of_eq atIndex (by rw [place]; rfl)).symm

theorem runFrom_deliveryLabels {server : Server} (exclusive : threads.Exclusive)
    (atIndex : threads.deliveries[index]? = some delivery)
    (taken : threads.stepDelivery index delivery = some next) :
    (exchangeSystem callback subscribers server).runFrom threads.exchange
      (if delivery.pc = .store then [.deliver (threads.flightIndex index)] else []) =
        some next.exchange := by
  cases stepDelivery_cases taken with
  | arrive place | unlock place | lock place _ =>
    rw [if_neg (by simp [place])]
    refine congrArg some (exchange_moveDelivery_of_eq atIndex ?_ ?_).symm
    · simp [place]
    · simp [Delivery.inFlight, place]
  | store place =>
    rw [if_pos place]
    have found : threads.exchange.inFlight[threads.flightIndex index]? =
        some (delivery.client, delivery.reply) :=
      getElem?_position atIndex (by simp [Delivery.inFlight, place])
    have stores : threads.exchange.step callback subscribers
        (.deliver (threads.flightIndex index)) = some _ :=
      (congrArg (Option.map _) found).trans
        (congrArg some (exchange_store exclusive atIndex place))
    exact Option.bind_eq_some_iff.mpr ⟨_, stores, rfl⟩
  | notifyAll place =>
    rw [if_neg (by simp [place])]
    exact congrArg some (exchange_notifyAll atIndex place).symm

/-- A call that begins. -/
theorem exchange_call {client : Client} {request : Request} (known : client ∈ subscribers) :
    threads.exchange.step callback subscribers (.call client request) =
      some (exchange { threads with
        requests := threads.requests ++ [(threads.nextNumber, request)]
        callers := threads.callers ++ [⟨client, threads.nextNumber, .lock⟩]
        nextNumber := threads.nextNumber + 1 }) := by
  simp only [Exchange.step, if_pos known, exchange, List.filterMap_append]
  rfl

/-- New responses are in flight, and none is stored. -/
theorem exchange_serve {message : Nat × Request}
    (taken : threads.serve callback subscribers index message = some next) :
    threads.exchange.serve callback subscribers index message = some next.exchange := by
  obtain ⟨⟨response, server⟩, served, rfl⟩ := Option.map_eq_some_iff.mp taken
  refine Option.map_eq_some_iff.mpr ⟨(response, server), served, ?_⟩
  have stored : stored { threads with
      server := server
      requests := threads.requests.eraseIdx index
      deliveries := threads.deliveries ++
        subscribers.map fun client => ⟨client, ⟨message.1, response⟩, .travelling⟩
      computed := threads.computed ++ [⟨message.1, response⟩] } = threads.stored := by
    funext client
    simp [ClientThreads.stored]
  have flight : (subscribers.map fun client => (⟨client, ⟨message.1, response⟩, .travelling⟩ :
      Delivery Client Response)).filterMap Delivery.inFlight =
        subscribers.map fun client => (client, ⟨message.1, response⟩) := by
    rw [List.filterMap_map, ← List.filterMap_eq_map]
    rfl
  simp only [exchange, stored, List.filterMap_append, flight]

/-- One step of the threads is at most one of the service calls. -/
theorem runFrom_labels {server : Server} (exclusive : threads.Exclusive)
    (taken : threads.step callback subscribers label = some next) :
    (exchangeSystem callback subscribers server).runFrom threads.exchange (threads.labels label) =
      some next.exchange := by
  cases label with
  | call client request =>
    obtain ⟨known, taken⟩ := Option.ite_none_right_eq_some.mp taken
    obtain rfl := Option.some.inj taken
    have begins : threads.exchange.step callback subscribers (.call client request) = some _ :=
      exchange_call known
    exact Option.bind_eq_some_iff.mpr ⟨_, begins, rfl⟩
  | caller index =>
    obtain ⟨caller, atIndex, taken⟩ := Option.bind_eq_some_iff.mp taken
    simp only [labels, atIndex, Option.elim_some]
    exact runFrom_callerLabels exclusive atIndex taken
  | wake index =>
    obtain ⟨caller, atIndex, taken⟩ := Option.bind_eq_some_iff.mp taken
    obtain ⟨asleep, taken⟩ := Option.ite_none_right_eq_some.mp taken
    obtain rfl := Option.some.inj taken
    simp only [labels, atIndex, Option.elim_some]
    cases stored : threads.stored caller.client with
    | true =>
      refine congrArg some (exchange_moveCaller_of_eq atIndex ?_).symm
      rw [asleep, stored]
      rfl
    | false =>
      have moves : threads.exchange.moveCall (threads.callIndex index) .asleep .woken =
          some (threads.moveCaller index caller .notified).exchange :=
        exchange_moveCaller atIndex (by rw [asleep, stored]; rfl) rfl
      exact Option.bind_eq_some_iff.mpr ⟨_, moves, rfl⟩
  | serve index =>
    obtain ⟨message, atIndex, taken⟩ := Option.bind_eq_some_iff.mp taken
    have serves : threads.exchange.step callback subscribers (.serve index) = some next.exchange :=
      Option.bind_eq_some_iff.mpr ⟨message, atIndex, exchange_serve taken⟩
    exact Option.bind_eq_some_iff.mpr ⟨_, serves, rfl⟩
  | delivery index =>
    obtain ⟨delivery, atIndex, taken⟩ := Option.bind_eq_some_iff.mp taken
    simp only [labels, atIndex, Option.elim_some]
    exact runFrom_deliveryLabels exclusive atIndex taken
  | change server =>
    obtain rfl := Option.some.inj taken
    rfl

/-- No response is stored while a call other than the one it answers is in progress at its client,
and no call begins at a client that keeps a response. -/
def Orderly (threads : ClientThreads Client Request Response Server) :
    ThreadLabel Client Request Server → Prop
  | .call client _ => threads.remoteResponse client = none
  | .delivery index => ∀ delivery ∈ threads.deliveries[index]?, delivery.pc = .store →
      ∀ caller ∈ threads.callers, caller.client = delivery.client →
        caller.pc ≠ .idle → caller.pc ≠ .unlock → caller.number = delivery.reply.number
  | .caller _ | .wake _ | .serve _ | .change _ => True

/-- A call in progress is one of a thread that has not returned. -/
theorem exists_caller_of_mem_calls {call : ClientCall Client}
    (among : call ∈ threads.exchange.calls) :
    ∃ caller ∈ threads.callers, caller.pc ≠ .idle ∧ caller.pc ≠ .unlock ∧
      caller.client = call.client ∧ caller.number = call.number := by
  obtain ⟨caller, member, seen⟩ := List.mem_filterMap.mp among
  obtain ⟨place, inside, rfl⟩ := Option.map_eq_some_iff.mp seen
  refine ⟨caller, member, ?_, ?_, rfl, rfl⟩
  · intro idle
    rw [idle] at inside
    cases inside
  · intro unlock
    rw [unlock] at inside
    cases inside

/-- Orderly threads make orderly calls. -/
theorem admitsFrom_labels {server : Server} (orderly : threads.Orderly label) :
    (exchangeSystem callback subscribers server).AdmitsFrom Exchange.Orderly threads.exchange
      (threads.labels label) := by
  cases label with
  | call client request => exact ⟨orderly, fun _ _ => trivial⟩
  | caller index =>
    cases found : threads.callers[index]? with
    | none => simp [labels, found, System.AdmitsFrom]
    | some caller =>
      simp only [labels, found, Option.elim_some, callerLabels]
      split <;> simp [System.AdmitsFrom, Exchange.Orderly]
  | wake index =>
    cases found : threads.callers[index]? with
    | none => simp [labels, found, System.AdmitsFrom]
    | some caller =>
      simp only [labels, found, Option.elim_some]
      split <;> simp [System.AdmitsFrom, Exchange.Orderly]
  | serve index => exact ⟨trivial, fun _ _ => trivial⟩
  | delivery index =>
    cases found : threads.deliveries[index]? with
    | none => simp [labels, found, System.AdmitsFrom]
    | some delivery =>
      simp only [labels, found, Option.elim_some]
      split_ifs with storing
      · refine ⟨?_, fun _ _ => trivial⟩
        intro message arrived call among same
        have seen : delivery.inFlight = some (delivery.client, delivery.reply) := by
          simp [Delivery.inFlight, storing]
        obtain rfl := Option.some.inj ((getElem?_position found seen).symm.trans arrived)
        obtain ⟨caller, member, awake, inside, owner, number⟩ := exists_caller_of_mem_calls among
        rw [← number]
        exact orderly delivery found storing caller member (owner.trans same) awake inside
      · trivial
  | change server => exact ⟨trivial, fun _ _ => trivial⟩

end ClientThreads

section Refinement

variable {Client Request Response Server : Type} [DecidableEq Client]

/-- The threads refine the service calls. -/
def threadRefinement (callback : Request → Server → Option (Response × Server))
    (subscribers : List Client) (server : Server) :
    Refinement (threadSystem callback subscribers server)
      (exchangeSystem callback subscribers server) where
  state := ClientThreads.exchange
  labels := ClientThreads.labels
  Inv := ClientThreads.Exclusive
  initial := rfl
  holds := fun _ among => absurd among List.not_mem_nil
  preserved := fun exclusive taken => exclusive.step taken
  step := fun exclusive taken => ClientThreads.runFrom_labels exclusive taken

theorem answered_of_reachableUnder {callback : Request → Server → Option (Response × Server)}
    {subscribers : List Client} {server : Server}
    {exchange : Exchange Client Request Response Server}
    (reachable : (exchangeSystem callback subscribers server).ReachableUnder Exchange.Orderly
      exchange) : exchange.Answered := by
  apply reachable.invariant Exchange.Answered
  · constructor <;> simp [exchangeSystem]
  · intro before label after answered orderly taken
    exact answered.step orderly taken

/-- Whatever the threads do with their mutexes, they are in a state that the service calls reach in
whole steps, with the same results. So every result is a response that was computed, and in orderly
runs it is the one to the request of its call. -/
theorem threads_refine_calls (callback : Request → Server → Option (Response × Server))
    (subscribers : List Client) (server : Server) :
    (∀ threads, (threadSystem callback subscribers server).Reachable threads →
      (exchangeSystem callback subscribers server).Reachable threads.exchange ∧
        ∀ result ∈ threads.results, result.2 ∈ threads.computed) ∧
    ∀ threads, (threadSystem callback subscribers server).ReachableUnder
      ClientThreads.Orderly threads → ∀ result ∈ threads.results,
        result.2.number = result.1 ∧ result.2 ∈ threads.computed := by
  constructor
  · intro threads reachable
    have reached := (threadRefinement callback subscribers server).reachable reachable
    exact ⟨reached, (Exchange.reachable_recorded reached).results⟩
  · intro threads reachable result among
    obtain ⟨-, reached⟩ := (threadRefinement callback subscribers server).reachableUnder
      (fun _ orderly => ClientThreads.admitsFrom_labels orderly) reachable
    exact ⟨(answered_of_reachableUnder reached).results result among,
      (Exchange.reachable_recorded reached.reachable).results result among⟩

/-- A call that sleeps before its response is stored. -/
theorem threads_refine_sleeping_call : ∃ threads,
    (threadSystem (fun (request : Nat) (server : Unit) => some (request + 1, server)) [()] ()).run
      [.call () 4, .caller 0, .caller 0, .serve 0, .delivery 0, .delivery 0, .delivery 0,
        .delivery 0, .delivery 0, .caller 0, .caller 0, .caller 0] = some threads ∧
    threads.results = [(0, ⟨0, 5⟩)] ∧
    (exchangeSystem (fun (request : Nat) (server : Unit) => some (request + 1, server)) [()]
      ()).Reachable threads.exchange ∧ ∀ result ∈ threads.results, result.2 ∈ threads.computed := by
  have replayed : (threadSystem (fun (request : Nat) (server : Unit) => some (request + 1, server))
      [()] ()).run [.call () 4, .caller 0, .caller 0, .serve 0, .delivery 0, .delivery 0,
        .delivery 0, .delivery 0, .delivery 0, .caller 0, .caller 0, .caller 0] = some _ := rfl
  have reachable := System.ReachableUnder.initial.replay replayed
  exact ⟨_, rfl, rfl, (threads_refine_calls _ [()] ()).1 _ reachable⟩

end Refinement

end Dls2.Service
