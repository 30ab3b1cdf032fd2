import Dls2.Lib.Assoc
import Dls2.Lib.Transition

/-!
# The parameter server

A string store with two ways to write it: write requests of clients and the
command `setParam`. Both insert with `emplace`, which keeps a value that is there
already, so what a read returns is the earliest value written to its key.

The specification of a store is `latest`, the most recent one.
-/

namespace Dls2.Service

open Dls2.Transition

/-- The message of requests and responses alike. -/
structure ParamServer where
  key : String
  value : String
  rw : Bool
deriving DecidableEq, Repr

/-- A message as its type's constructor leaves it. -/
def ParamServer.new : ParamServer := ⟨"", "", false⟩

/-- The request `ParameterClient::set` sends. -/
def setRequest (key data : String) : ParamServer := { key := key, value := data, rw := true }

/-- A request to read; `ParameterClient::get` leaves the value empty. -/
def readRequest (key value : String) : ParamServer := { key := key, value := value, rw := false }

/-- `param_store`. -/
abbrev ParamStore := Assoc.Map String String

namespace ParamStore

/-- The request handler: the response it fills in, and the store. `none` would be
the dereference of an end iterator. -/
def handle (store : ParamStore) (request result : ParamServer) :
    Option (ParamServer × ParamStore) :=
  let param := store.lookup request.key
  if param = none ∧ request.rw = false then
    -- a reading request for a parameter that does not exist
    some ({ result with value := "", rw := false }, store)
  else
    let store := if request.rw then Assoc.emplace request.key request.value store else store
    -- `param` is renewed by a writing request
    let param := if request.rw then store.lookup request.key else param
    param.map fun value => ({ result with value := value, rw := true }, store)

/-- The callback of the command `setParam`. -/
def setParam (store : ParamStore) (key data : String) : ParamStore :=
  Assoc.emplace key data store

/-- The value a read of a missing or present key answers with. -/
def answer : Option String → ParamServer
  | none => { ParamServer.new with value := "", rw := false }
  | some value => { ParamServer.new with value := value, rw := true }

/-- A read answers with the stored value and leaves the store alone. -/
theorem handle_readRequest (store : ParamStore) (key value : String) :
    store.handle (readRequest key value) .new = some (answer (store.lookup key), store) := by
  cases found : store.lookup key <;> simp [handle, readRequest, found, answer]

/-- A write request is an insertion like `setParam`. -/
theorem handle_setRequest (store : ParamStore) (key data : String) :
    (store.handle (setRequest key data) .new).map Prod.snd = some (store.setParam key data) := by
  cases found : store.lookup key <;>
    simp [handle, setRequest, setParam, Assoc.lookup_emplace_eq, found]

end ParamStore

/-- What can happen to a parameter server. -/
inductive ParamOperation where
  /-- A request of a client arrives. -/
  | request (message : ParamServer)
  | setParam (key data : String)
deriving DecidableEq, Repr

/-- The parameter server: an empty store and its operations. -/
def parameterServer : System ParamStore ParamOperation where
  initial := ∅
  step store
    | .request message => (store.handle message .new).map Prod.snd
    | .setParam key data => some (store.setParam key data)

/-- The value an operation writes to a key, if it does. -/
def ParamOperation.writes (key : String) : ParamOperation → Option String
  | .request message => if message.rw ∧ key = message.key then some message.value else none
  | .setParam written data => if key = written then some data else none

/-- The most recent write to a key. -/
def latest (history : List ParamOperation) (key : String) : Option String :=
  (history.filterMap (ParamOperation.writes key)).getLast?

/-- The first write to a key. -/
def earliest (history : List ParamOperation) (key : String) : Option String :=
  (history.filterMap (ParamOperation.writes key)).head?

/-- One operation fills a free key with what it writes there, and keeps the others. -/
theorem step_lookup (store : ParamStore) (operation : ParamOperation) :
    ∃ next, parameterServer.step store operation = some next ∧
      ∀ key, next.lookup key = (store.lookup key).or (operation.writes key) := by
  cases operation with
  | setParam written data =>
    exact ⟨_, rfl, fun key => Assoc.lookup_emplace_eq written key data store⟩
  | request message =>
    obtain ⟨written, data, write⟩ := message
    cases write with
    | true =>
      refine ⟨_, store.handle_setRequest written data, fun key => ?_⟩
      rw [ParamStore.setParam, Assoc.lookup_emplace_eq]
      simp [ParamOperation.writes]
    | false =>
      refine ⟨store, ?_, fun key => by simp [ParamOperation.writes]⟩
      exact congrArg (Option.map Prod.snd) (store.handle_readRequest written data)

/-- Along a history every key keeps its value, or gets the first one written. -/
theorem runFrom_lookup (store : ParamStore) (history : List ParamOperation) :
    ∃ final, parameterServer.runFrom store history = some final ∧
      ∀ key, final.lookup key = (store.lookup key).or (earliest history key) := by
  induction history generalizing store with
  | nil => exact ⟨store, rfl, fun key => by simp [earliest]⟩
  | cons operation rest ih =>
    obtain ⟨next, taken, written⟩ := step_lookup store operation
    obtain ⟨final, replayed, found⟩ := ih next
    refine ⟨final, System.runFrom_cons_iff.mpr ⟨next, taken, replayed⟩, fun key => ?_⟩
    rw [found, written, Option.or_assoc]
    cases writes : operation.writes key <;> simp [earliest, writes]

namespace ParamStore

theorem answer_inj {first second : Option String} : answer first = answer second ↔
    first = second := by
  constructor
  · intro same
    cases first <;> cases second <;> simp [answer, ParamServer.new] at same ⊢
    exact same
  · exact congrArg answer

end ParamStore

/-- After any history a read answers with the most recent write exactly when that is
also the first one, or there is none. -/
theorem read_answers_latest_iff (history : List ParamOperation) (key value : String) :
    ∃ store, parameterServer.run history = some store ∧
      (store.handle (readRequest key value) .new =
          some (ParamStore.answer (latest history key), store) ↔
        earliest history key = latest history key) := by
  obtain ⟨store, replayed, found⟩ := runFrom_lookup ∅ history
  refine ⟨store, replayed, ?_⟩
  rw [store.handle_readRequest, found]
  simp [ParamStore.answer_inj]

/-- A value is not updated: after writing 1 and then 2 a read answers with 1. -/
theorem second_write_is_lost : ∃ store,
    parameterServer.run [.request (setRequest "gain" "1"), .request (setRequest "gain" "2")] =
      some store ∧
    latest [.request (setRequest "gain" "1"), .request (setRequest "gain" "2")] "gain" =
      some "2" ∧
    (store.handle (readRequest "gain" "") .new).map (fun served => served.1.value) =
      some "1" := by
  obtain ⟨store, replayed, found⟩ := runFrom_lookup ∅
    [.request (setRequest "gain" "1"), .request (setRequest "gain" "2")]
  refine ⟨store, replayed, by decide, ?_⟩
  have first : store.lookup "gain" = some "1" := found "gain"
  rw [store.handle_readRequest, first]
  rfl

end Dls2.Service
