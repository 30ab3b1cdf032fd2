import Dls2.Lib.Pending
import Dls2.Lib.Transition
import Dls2.Service.ParameterServer
import Mathlib.Logic.Function.Basic

/-!
# Service calls

All clients of a server share its response topic, so that every response reaches the
subscriber of every client. A client keeps the response that arrived last, and a call
that wakes takes whatever is there: nothing ties a response to the request it answers.

Requests are numbered in the order in which they are sent. The numbers are not in the
messages; they only record which request a response was computed for. Requests are
served, and responses delivered, in any order. Clients, messages and the callback of
the server are arbitrary.
-/

namespace Dls2.Service

open Dls2.Pending Dls2.Transition

/-- A response and the number of the request it was computed for. -/
structure Reply (Response : Type) where
  number : Nat
  response : Response
deriving DecidableEq, Repr

/-- The place of a thread in `ServiceClient::call`. -/
inductive CallPlace where
  /-- The request has been sent, the mutex not been locked. -/
  | sent
  /-- Inside `wait` or `wait_for`. -/
  | asleep
  /-- Notified, or the time is over. -/
  | woken
deriving DecidableEq, Repr

/-- A call in progress. -/
structure ClientCall (Client : Type) where
  client : Client
  number : Nat
  place : CallPlace
deriving DecidableEq, Repr

/-- A server, its clients, and the messages in flight. `computed` and `results` record
every response computed and every result filled in, with the number of its call. -/
structure Exchange (Client Request Response Server : Type) where
  server : Server
  requests : List (Nat × Request)
  inFlight : List (Client × Reply Response)
  remoteResponse : Client → Option (Reply Response)
  calls : List (ClientCall Client)
  nextNumber : Nat
  computed : List (Reply Response)
  results : List (Nat × Reply Response)

inductive ServiceLabel (Client Request Server : Type) where
  /-- A thread calls the service and sends its request. -/
  | call (client : Client) (request : Request)
  /-- The call with this index locks the mutex and waits. -/
  | block (index : Nat)
  /-- Its time is over, or it wakes spuriously. -/
  | wake (index : Nat)
  /-- It takes the response that is there and returns. -/
  | take (index : Nat)
  /-- The server answers the request with this index. -/
  | serve (index : Nat)
  /-- The message with this index arrives. -/
  | deliver (index : Nat)
  /-- The server changes for another reason. -/
  | change (server : Server)

/-- Steps of the threads inside `call`. -/
def ServiceLabel.IsCaller {Client Request Server : Type} :
    ServiceLabel Client Request Server → Prop
  | .block _ | .wake _ | .take _ => True
  | .call _ _ | .serve _ | .deliver _ | .change _ => False

namespace Exchange

variable {Client Request Response Server : Type}

/-- `notify_all` on the condition variable of one client. -/
def notifyAll [DecidableEq Client] (client : Client) (call : ClientCall Client) :
    ClientCall Client :=
  if call.client = client ∧ call.place = .asleep then { call with place := .woken } else call

/-- The request handler of the server and the publication of its response, of which
every subscriber gets a copy. -/
def serve (callback : Request → Server → Option (Response × Server)) (subscribers : List Client)
    (exchange : Exchange Client Request Response Server) (index : Nat)
    (message : Nat × Request) : Option (Exchange Client Request Response Server) :=
  (callback message.2 exchange.server).map fun (response, server) =>
    { exchange with
      server := server
      requests := exchange.requests.eraseIdx index
      inFlight := exchange.inFlight ++ subscribers.map fun client => (client, ⟨message.1, response⟩)
      computed := exchange.computed ++ [⟨message.1, response⟩] }

variable [DecidableEq Client]

/-- The callback of a client's subscriber. -/
def deliver (exchange : Exchange Client Request Response Server) (index : Nat)
    (message : Client × Reply Response) : Exchange Client Request Response Server :=
  { exchange with
    inFlight := exchange.inFlight.eraseIdx index
    remoteResponse := Function.update exchange.remoteResponse message.1 (some message.2)
    calls := exchange.calls.map (notifyAll message.1) }

/-- The end of `call`. -/
def take (exchange : Exchange Client Request Response Server) (index : Nat)
    (call : ClientCall Client) : Exchange Client Request Response Server :=
  match exchange.remoteResponse call.client with
  | none => { exchange with calls := exchange.calls.eraseIdx index }
  | some reply =>
    { exchange with
      calls := exchange.calls.eraseIdx index
      remoteResponse := Function.update exchange.remoteResponse call.client none
      results := exchange.results ++ [(call.number, reply)] }

/-- A call at one place goes on to another. -/
def moveCall (exchange : Exchange Client Request Response Server) (index : Nat)
    (source target : CallPlace) : Option (Exchange Client Request Response Server) :=
  exchange.calls[index]?.bind fun call =>
    if call.place = source then
      some { exchange with calls := exchange.calls.set index { call with place := target } }
    else none

def step (callback : Request → Server → Option (Response × Server)) (subscribers : List Client)
    (exchange : Exchange Client Request Response Server) :
    ServiceLabel Client Request Server → Option (Exchange Client Request Response Server)
  | .call client request =>
    if client ∈ subscribers then
      some { exchange with
        requests := exchange.requests ++ [(exchange.nextNumber, request)]
        calls := exchange.calls ++ [⟨client, exchange.nextNumber, .sent⟩]
        nextNumber := exchange.nextNumber + 1 }
    else none
  | .block index => exchange.moveCall index .sent .asleep
  | .wake index => exchange.moveCall index .asleep .woken
  | .take index => exchange.calls[index]?.bind fun call =>
      if call.place = .woken then some (exchange.take index call) else none
  | .serve index => exchange.requests[index]?.bind (exchange.serve callback subscribers index)
  | .deliver index => exchange.inFlight[index]?.map (exchange.deliver index)
  | .change server => some { exchange with server := server }

/-- Some call has filled in the response to another request. -/
def Mismatched (exchange : Exchange Client Request Response Server) : Prop :=
  ∃ result ∈ exchange.results, result.2.number ≠ result.1

/-- No response reaches a client while a call other than the one it answers is in
progress there, and no call begins at a client that keeps a response. -/
def Orderly (exchange : Exchange Client Request Response Server) :
    ServiceLabel Client Request Server → Prop
  | .call client _ => exchange.remoteResponse client = none
  | .deliver index => ∀ message ∈ exchange.inFlight[index]?,
      ∀ call ∈ exchange.calls, call.client = message.1 → call.number = message.2.number
  | .block _ | .wake _ | .take _ | .serve _ | .change _ => True

instance Orderly.decidable (exchange : Exchange Client Request Response Server) :
    (label : ServiceLabel Client Request Server) → Decidable (Orderly exchange label)
  | .call _ _ => decidable_of_iff _ Option.isNone_iff_eq_none
  | .deliver index => inferInstanceAs (Decidable (∀ message ∈ exchange.inFlight[index]?,
      ∀ call ∈ exchange.calls, call.client = message.1 → call.number = message.2.number))
  | .block _ | .wake _ | .take _ | .serve _ | .change _ => isTrue trivial

end Exchange

/-- A server in some state, and clients that have not called yet. -/
def exchangeSystem {Client Request Response Server : Type} [DecidableEq Client]
    (callback : Request → Server → Option (Response × Server)) (subscribers : List Client)
    (server : Server) :
    System (Exchange Client Request Response Server) (ServiceLabel Client Request Server) where
  initial := ⟨server, [], [], fun _ => none, [], 0, [], []⟩
  step := Exchange.step callback subscribers

namespace Exchange

variable {Client Request Response Server : Type}
  {callback : Request → Server → Option (Response × Server)} {subscribers : List Client}
  {exchange next : Exchange Client Request Response Server}
  {label : ServiceLabel Client Request Server}

/-- A step that moves a call changes its place only. -/
theorem moveCall_eq {index : Nat} {source target : CallPlace}
    (taken : exchange.moveCall index source target = some next) :
    ∃ call, exchange.calls[index]? = some call ∧ call.place = source ∧
      next = { exchange with calls := exchange.calls.set index { call with place := target } } := by
  obtain ⟨call, atIndex, runs⟩ := Option.bind_eq_some_iff.mp taken
  obtain ⟨place, same⟩ := Option.ite_none_right_eq_some.mp runs
  exact ⟨call, atIndex, place, (Option.some.inj same).symm⟩

/-- A call goes on only from the place it is at. -/
theorem moveCall_of_place {index : Nat} {call : ClientCall Client} {source target : CallPlace}
    (atIndex : exchange.calls[index]? = some call) (place : call.place = source) :
    exchange.moveCall index source target =
      some { exchange with calls := exchange.calls.set index { call with place := target } } := by
  simp [moveCall, atIndex, place]

/-- The answering of a request. -/
theorem serve_eq {index : Nat} {message : Nat × Request}
    (taken : exchange.serve callback subscribers index message = some next) :
    ∃ response server, callback message.2 exchange.server = some (response, server) ∧
      next = { exchange with
        server := server
        requests := exchange.requests.eraseIdx index
        inFlight := exchange.inFlight ++
          subscribers.map fun client => (client, ⟨message.1, response⟩)
        computed := exchange.computed ++ [⟨message.1, response⟩] } := by
  obtain ⟨⟨response, server⟩, answers, rfl⟩ := Option.map_eq_some_iff.mp taken
  exact ⟨response, server, answers, rfl⟩

/-- Moving and notifying calls keeps their clients and numbers. -/
theorem mem_set_call {index : Nat} {call moved : ClientCall Client} {target : CallPlace}
    (atIndex : exchange.calls[index]? = some call)
    (member : moved ∈ exchange.calls.set index { call with place := target }) :
    ∃ before ∈ exchange.calls, before.client = moved.client ∧ before.number = moved.number := by
  obtain before | rfl := List.mem_or_eq_of_mem_set member
  · exact ⟨moved, before, rfl, rfl⟩
  · exact ⟨call, List.mem_of_getElem? atIndex, rfl, rfl⟩

/-! ### Every result was computed -/

/-- Responses in flight, kept or filled in have been computed, for requests sent. -/
structure Recorded (exchange : Exchange Client Request Response Server) : Prop where
  inFlight : ∀ message ∈ exchange.inFlight, message.2 ∈ exchange.computed
  kept : ∀ client reply, exchange.remoteResponse client = some reply →
    reply ∈ exchange.computed
  results : ∀ result ∈ exchange.results, result.2 ∈ exchange.computed
  computed : ∀ reply ∈ exchange.computed, reply.number < exchange.nextNumber
  requests : ∀ message ∈ exchange.requests, message.1 < exchange.nextNumber

theorem Recorded.serve (recorded : Recorded exchange) {index : Nat} {message : Nat × Request}
    (atIndex : exchange.requests[index]? = some message)
    (taken : exchange.serve callback subscribers index message = some next) : Recorded next := by
  obtain ⟨response, server, _, rfl⟩ := serve_eq taken
  refine ⟨?_, ?_, ?_, ?_, ?_⟩
  · intro other among
    obtain before | sent := List.mem_append.mp among
    · exact List.mem_append_left _ (recorded.inFlight other before)
    · obtain ⟨client, _, rfl⟩ := List.mem_map.mp sent
      exact List.mem_append_right _ (List.mem_singleton_self _)
  · exact fun client reply stored => List.mem_append_left _ (recorded.kept client reply stored)
  · exact fun result among => List.mem_append_left _ (recorded.results result among)
  · intro reply among
    obtain before | here := List.mem_append.mp among
    · exact recorded.computed reply before
    · obtain rfl := List.mem_singleton.mp here
      exact recorded.requests message (List.mem_of_getElem? atIndex)
  · exact fun other among => recorded.requests other (List.mem_of_mem_eraseIdx among)

variable [DecidableEq Client]

theorem notifyAll_client (client : Client) (call : ClientCall Client) :
    (notifyAll client call).client = call.client := by
  unfold notifyAll
  split <;> rfl

theorem notifyAll_number (client : Client) (call : ClientCall Client) :
    (notifyAll client call).number = call.number := by
  unfold notifyAll
  split <;> rfl

theorem Recorded.take (recorded : Recorded exchange) (index : Nat) (call : ClientCall Client) :
    Recorded (exchange.take index call) := by
  unfold Exchange.take
  split
  · exact ⟨recorded.inFlight, recorded.kept, recorded.results, recorded.computed,
      recorded.requests⟩
  · rename_i reply kept
    refine ⟨recorded.inFlight, ?_, ?_, recorded.computed, recorded.requests⟩
    · intro client other stored
      by_cases same : client = call.client
      · subst same
        simp at stored
      · simp only [Function.update_of_ne same] at stored
        exact recorded.kept client other stored
    · intro result among
      obtain before | here := List.mem_append.mp among
      · exact recorded.results result before
      · obtain rfl := List.mem_singleton.mp here
        exact recorded.kept call.client reply kept

theorem Recorded.deliver (recorded : Recorded exchange) {index : Nat}
    {message : Client × Reply Response} (atIndex : exchange.inFlight[index]? = some message) :
    Recorded (exchange.deliver index message) where
  inFlight other among := recorded.inFlight other (List.mem_of_mem_eraseIdx among)
  kept client reply stored := by
    by_cases same : client = message.1
    · subst same
      obtain rfl : message.2 = reply := by simpa [Exchange.deliver] using stored
      exact recorded.inFlight message (List.mem_of_getElem? atIndex)
    · simp only [Exchange.deliver, Function.update_of_ne same] at stored
      exact recorded.kept client reply stored
  results := recorded.results
  computed := recorded.computed
  requests := recorded.requests

/-- Every step keeps the record. -/
theorem Recorded.step (recorded : Recorded exchange)
    (taken : exchange.step callback subscribers label = some next) : Recorded next := by
  cases label with
  | call client request =>
    obtain ⟨_, runs⟩ := Option.ite_none_right_eq_some.mp taken
    obtain rfl := Option.some.inj runs
    refine ⟨recorded.inFlight, recorded.kept, recorded.results,
      fun reply among => Nat.lt_succ_of_lt (recorded.computed reply among), ?_⟩
    intro message among
    obtain before | here := List.mem_append.mp among
    · exact Nat.lt_succ_of_lt (recorded.requests message before)
    · obtain rfl := List.mem_singleton.mp here
      exact Nat.lt_succ_self _
  | block index | wake index =>
    obtain ⟨call, _, _, rfl⟩ := moveCall_eq taken
    exact ⟨recorded.inFlight, recorded.kept, recorded.results, recorded.computed,
      recorded.requests⟩
  | take index =>
    obtain ⟨call, _, runs⟩ := Option.bind_eq_some_iff.mp taken
    obtain ⟨_, same⟩ := Option.ite_none_right_eq_some.mp runs
    obtain rfl := Option.some.inj same
    exact recorded.take index call
  | serve index =>
    obtain ⟨message, atIndex, serves⟩ := Option.bind_eq_some_iff.mp taken
    exact recorded.serve atIndex serves
  | deliver index =>
    obtain ⟨message, atIndex, rfl⟩ := Option.map_eq_some_iff.mp taken
    exact recorded.deliver atIndex
  | change server =>
    obtain rfl := Option.some.inj taken
    exact ⟨recorded.inFlight, recorded.kept, recorded.results, recorded.computed,
      recorded.requests⟩

/-- The record holds in every run. -/
theorem reachable_recorded {server : Server}
    (reachable : (exchangeSystem callback subscribers server).Reachable exchange) :
    Recorded exchange := by
  apply reachable.invariant Recorded
  · constructor <;> simp [exchangeSystem]
  · intro before label after recorded _ taken
    exact recorded.step taken

/-! ### Orderly runs -/

/-- What an orderly run keeps: a response that a client keeps answers each of its calls
in progress, and every result filled in answers its call. -/
structure Answered (exchange : Exchange Client Request Response Server) : Prop where
  kept : ∀ client reply, exchange.remoteResponse client = some reply →
    ∀ call ∈ exchange.calls, call.client = client → call.number = reply.number
  results : ∀ result ∈ exchange.results, result.2.number = result.1

namespace Answered

/-- The last step of a call fills in the response to its own request. -/
theorem take (answered : Answered exchange) {index : Nat} {call : ClientCall Client}
    (atIndex : exchange.calls[index]? = some call) : Answered (exchange.take index call) := by
  unfold Exchange.take
  split
  · exact ⟨fun client reply stored other among =>
      answered.kept client reply stored other (List.mem_of_mem_eraseIdx among), answered.results⟩
  · rename_i reply kept
    constructor
    · intro client other stored waiting among same
      by_cases taken : client = call.client
      · subst taken
        simp at stored
      · simp only [Function.update_of_ne taken] at stored
        exact answered.kept client other stored waiting (List.mem_of_mem_eraseIdx among) same
    · intro result among
      obtain before | here := List.mem_append.mp among
      · exact answered.results result before
      · obtain rfl := List.mem_singleton.mp here
        exact (answered.kept call.client reply kept call (List.mem_of_getElem? atIndex) rfl).symm

/-- An orderly delivery brings every call of the client its own response. -/
theorem deliver (answered : Answered exchange) {index : Nat}
    {message : Client × Reply Response}
    (own : ∀ call ∈ exchange.calls, call.client = message.1 → call.number = message.2.number) :
    Answered (exchange.deliver index message) where
  kept client reply stored call among same := by
    obtain ⟨before, member, rfl⟩ := List.mem_map.mp among
    rw [notifyAll_client] at same
    rw [notifyAll_number]
    by_cases here : client = message.1
    · subst here
      obtain rfl : message.2 = reply := by simpa [Exchange.deliver] using stored
      exact own before member same
    · simp only [Exchange.deliver, Function.update_of_ne here] at stored
      exact answered.kept client reply stored before member same
  results := answered.results

/-- Every orderly step keeps it. -/
theorem step (answered : Answered exchange) (orderly : exchange.Orderly label)
    (taken : exchange.step callback subscribers label = some next) : Answered next := by
  cases label with
  | call client request =>
    obtain ⟨_, runs⟩ := Option.ite_none_right_eq_some.mp taken
    obtain rfl := Option.some.inj runs
    refine ⟨?_, answered.results⟩
    intro other reply stored call among same
    obtain before | here := List.mem_append.mp among
    · exact answered.kept other reply stored call before same
    · obtain rfl := List.mem_singleton.mp here
      -- the new call begins at a client that keeps nothing
      obtain rfl : client = other := same
      exact absurd (orderly.symm.trans stored) (by simp)
  | block index | wake index =>
    obtain ⟨call, atIndex, _, rfl⟩ := moveCall_eq taken
    refine ⟨?_, answered.results⟩
    intro client reply stored moved among same
    obtain ⟨before, member, sameClient, sameNumber⟩ := mem_set_call atIndex among
    rw [← sameNumber]
    exact answered.kept client reply stored before member (sameClient.trans same)
  | take index =>
    obtain ⟨call, atIndex, runs⟩ := Option.bind_eq_some_iff.mp taken
    obtain ⟨_, same⟩ := Option.ite_none_right_eq_some.mp runs
    obtain rfl := Option.some.inj same
    exact answered.take atIndex
  | serve index =>
    obtain ⟨message, _, serves⟩ := Option.bind_eq_some_iff.mp taken
    obtain ⟨_, _, _, rfl⟩ := serve_eq serves
    exact ⟨answered.kept, answered.results⟩
  | deliver index =>
    obtain ⟨message, atIndex, rfl⟩ := Option.map_eq_some_iff.mp taken
    exact answered.deliver (orderly message atIndex)
  | change server =>
    obtain rfl := Option.some.inj taken
    exact ⟨answered.kept, answered.results⟩

end Answered

/-! ### Steps that are not orderly -/

variable {server : Server}

/-- A woken call whose client keeps another response fills that in. -/
theorem leadsTo_of_woken {index : Nat} {call : ClientCall Client} {reply : Reply Response}
    (atIndex : exchange.calls[index]? = some call) (place : call.place = .woken)
    (kept : exchange.remoteResponse call.client = some reply)
    (different : reply.number ≠ call.number) :
    (exchangeSystem callback subscribers server).LeadsTo ServiceLabel.IsCaller Mismatched
      exchange := by
  have taken : (exchangeSystem callback subscribers server).step exchange (.take index) =
      some (exchange.take index call) := by
    simp [exchangeSystem, Exchange.step, atIndex, place]
  have mine : (ServiceLabel.take index : ServiceLabel Client Request Server).IsCaller := trivial
  refine .step _ mine taken (.here ?_)
  refine ⟨(call.number, reply), ?_, different⟩
  simp [Exchange.take, kept]

/-- Wherever the call is, it gets there by its own steps. -/
theorem leadsTo_of_kept {index : Nat} {call : ClientCall Client} {reply : Reply Response}
    (atIndex : exchange.calls[index]? = some call)
    (kept : exchange.remoteResponse call.client = some reply)
    (different : reply.number ≠ call.number) :
    (exchangeSystem callback subscribers server).LeadsTo ServiceLabel.IsCaller Mismatched
      exchange := by
  obtain ⟨inside, _⟩ := List.getElem?_eq_some_iff.mp atIndex
  have atSet : ∀ (exchange : Exchange Client Request Response Server),
      index < exchange.calls.length → ∀ moved,
        (exchange.calls.set index moved)[index]? = some moved := by
    intro exchange inside moved
    simp [inside]
  -- from a sleeping call on
  have asleep : ∀ (exchange : Exchange Client Request Response Server) call,
      exchange.calls[index]? = some call → call.place = .asleep →
      exchange.remoteResponse call.client = some reply → reply.number ≠ call.number →
      (exchangeSystem callback subscribers server).LeadsTo ServiceLabel.IsCaller Mismatched
        exchange := by
    intro exchange call atIndex place kept different
    obtain ⟨inside, _⟩ := List.getElem?_eq_some_iff.mp atIndex
    have wakes : (exchangeSystem callback subscribers server).step exchange (.wake index) =
        some _ := moveCall_of_place atIndex place
    have mine : (ServiceLabel.wake index : ServiceLabel Client Request Server).IsCaller := trivial
    exact .step _ mine wakes (leadsTo_of_woken (atSet exchange inside _) rfl kept different)
  cases place : call.place with
  | sent =>
    have blocks : (exchangeSystem callback subscribers server).step exchange (.block index) =
        some _ := moveCall_of_place atIndex place
    have mine : (ServiceLabel.block index : ServiceLabel Client Request Server).IsCaller := trivial
    exact .step _ mine blocks (asleep _ _ (atSet exchange inside _) rfl kept different)
  | asleep => exact asleep exchange call atIndex place kept different
  | woken => exact leadsTo_of_woken atIndex place kept different

/-- After a step that is not orderly some call can go on to a mismatch by itself. -/
theorem leadsTo_of_not_orderly (recorded : Recorded exchange)
    (disorderly : ¬ exchange.Orderly label)
    (taken : exchange.step callback subscribers label = some next) :
    (exchangeSystem callback subscribers server).LeadsTo ServiceLabel.IsCaller Mismatched next := by
  cases label with
  | call client request =>
    obtain ⟨reply, kept⟩ := Option.ne_none_iff_exists'.mp disorderly
    obtain ⟨_, runs⟩ := Option.ite_none_right_eq_some.mp taken
    obtain rfl := Option.some.inj runs
    have older := recorded.computed reply (recorded.kept client reply kept)
    have newest : (exchange.calls ++ [(⟨client, exchange.nextNumber, .sent⟩ :
        ClientCall Client)])[exchange.calls.length]? =
          some ⟨client, exchange.nextNumber, .sent⟩ := by
      simp
    exact leadsTo_of_kept newest kept (Nat.ne_of_lt older)
  | deliver index =>
    simp only [Orderly, not_forall] at disorderly
    obtain ⟨message, atIndex, call, among, same, different⟩ := disorderly
    obtain ⟨moved, found, rfl⟩ := Option.map_eq_some_iff.mp taken
    obtain rfl : message = moved := Option.some.inj (atIndex.symm.trans found)
    obtain ⟨position, here⟩ := List.getElem?_of_mem among
    have notified : (exchange.deliver index message).calls[position]? =
        some (notifyAll message.1 call) := by
      simp [Exchange.deliver, here]
    have kept : (exchange.deliver index message).remoteResponse
        (notifyAll message.1 call).client = some message.2 := by
      simp [Exchange.deliver, notifyAll_client, same]
    refine leadsTo_of_kept notified kept ?_
    rw [notifyAll_number]
    exact fun equal => different equal.symm
  | block _ | wake _ | take _ | serve _ | change _ => exact absurd trivial disorderly

end Exchange

/-- In orderly runs every result that a call fills in is the response the server
computed for its own request. After a step that is not orderly some call can, by its
own steps, fill in the response to another request. -/
theorem own_response_of_orderly {Client Request Response Server : Type} [DecidableEq Client]
    (callback : Request → Server → Option (Response × Server)) (subscribers : List Client)
    (server : Server) :
    (∀ exchange, (exchangeSystem callback subscribers server).ReachableUnder
      Exchange.Orderly exchange → ∀ result ∈ exchange.results,
        result.2.number = result.1 ∧ result.2 ∈ exchange.computed) ∧
    ∀ exchange label next, (exchangeSystem callback subscribers server).Reachable exchange →
      ¬ Exchange.Orderly exchange label →
      (exchangeSystem callback subscribers server).step exchange label = some next →
      (exchangeSystem callback subscribers server).LeadsTo ServiceLabel.IsCaller
        Exchange.Mismatched next := by
  constructor
  · intro exchange reachable result among
    have answered : Exchange.Answered exchange := by
      apply reachable.invariant Exchange.Answered
      · constructor <;> simp [exchangeSystem]
      · intro before label after answered orderly taken
        exact answered.step orderly taken
    have recorded := Exchange.reachable_recorded reachable.reachable
    exact ⟨answered.results result among, recorded.results result among⟩
  · intro exchange label next reachable disorderly taken
    exact Exchange.leadsTo_of_not_orderly (Exchange.reachable_recorded reachable) disorderly taken

/-- The callback of the parameter server. -/
def paramCallback (request : ParamServer) (store : ParamStore) :
    Option (ParamServer × ParamStore) :=
  store.handle request .new

/-- A parameter server with two parameters and two clients. -/
def twoClients : System (Exchange Bool ParamServer ParamServer ParamStore)
    (ServiceLabel Bool ParamServer ParamStore) :=
  exchangeSystem paramCallback [false, true]
    ((ParamStore.setParam ∅ "mass" "12").setParam "height" "0.5")

/-- A client reads one parameter after the other. -/
theorem own_responses_in_turn : ∃ exchange, twoClients.Reachable exchange ∧
    exchange.results = [(0, ⟨0, ⟨"", "12", true⟩⟩), (1, ⟨1, ⟨"", "0.5", true⟩⟩)] ∧
    ∀ result ∈ exchange.results, result.2.number = result.1 ∧ result.2 ∈ exchange.computed := by
  have admitted : twoClients.AdmitsFrom Exchange.Orderly twoClients.initial
      [.call false (readRequest "mass" ""), .block 0, .serve 0, .deliver 0, .take 0,
        .call false (readRequest "height" ""), .block 0, .serve 0, .deliver 1, .take 0] := by
    decide
  have reachable := System.ReachableUnder.initial.runFrom admitted rfl
  exact ⟨_, reachable.reachable, by decide,
    (own_response_of_orderly paramCallback _ _).1 _ reachable⟩

/-- Both clients wait when the response to the first reaches the second: it asks for the
height and gets the mass. -/
theorem other_clients_response : ∃ exchange, twoClients.Reachable exchange ∧
    (1, ⟨0, ⟨"", "12", true⟩⟩) ∈ exchange.results ∧
    (⟨1, ⟨"", "0.5", true⟩⟩ : Reply ParamServer) ∈ exchange.computed := by
  have passes : (twoClients.run [.call false (readRequest "mass" ""),
      .call true (readRequest "height" ""), .block 0, .block 1, .serve 0, .deliver 1, .take 1,
      .serve 0]).any (fun exchange =>
        decide ((1, ⟨0, ⟨"", "12", true⟩⟩) ∈ exchange.results) &&
          decide ((⟨1, ⟨"", "0.5", true⟩⟩ : Reply ParamServer) ∈ exchange.computed)) = true := by
    decide
  obtain ⟨exchange, reachable, holds⟩ := System.exists_reachable_of_run passes
  simp only [Bool.and_eq_true, decide_eq_true_eq] at holds
  exact ⟨exchange, reachable, holds.1, holds.2⟩

end Dls2.Service
