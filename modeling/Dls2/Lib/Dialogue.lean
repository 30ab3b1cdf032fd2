import Mathlib.Data.List.Basic

/-!
# Programs in a dialogue with their surroundings

A program asks one question after the other, and returns or throws. The surroundings answer
each question from all that has been said before, so that whatever goes on beside the program
is some choice of surroundings.

`Meets` says which questions are asked after which history, and what holds of the history and
the result at the end. It is established one question at a time, and `Meets.run` turns it into
a fact about whole runs.
-/

namespace Dls2.Dialogue

universe u v w x y

/-- A program that asks, returns or throws. -/
inductive Program {Question : Type u} (Answer : Question → Type v) (Error : Type w)
    (α : Type x) where
  | done (value : α)
  | fail (error : Error)
  | ask (question : Question) (next : Answer question → Program Answer Error α)

/-- A question with its answer. -/
structure Said {Question : Type u} (Answer : Question → Type v) where
  question : Question
  answer : Answer question

/-- What is answered to a question after all that has been said. -/
abbrev Surroundings {Question : Type u} (Answer : Question → Type v) :=
  List (Said Answer) → (question : Question) → Answer question

variable {Question : Type u} {Answer : Question → Type v} {Error : Type w} {α : Type x}
  {β : Type y}

namespace Program

/-- Go on with the result of a program, unless it throws. -/
def bind (program : Program Answer Error α) (next : α → Program Answer Error β) :
    Program Answer Error β :=
  match program with
  | .done value => next value
  | .fail error => .fail error
  | .ask question later => .ask question fun answer => (later answer).bind next

instance instMonad : Monad (Program Answer Error) where
  pure := .done
  bind := bind

/-- Ask one question. -/
def query (question : Question) : Program Answer Error (Answer question) :=
  .ask question .done

/-- A loop of at most so many rounds. Each asks first whether to stop, and then carries a
value on or ends the loop with a result. -/
def retry (stop : Program Answer Error Bool) (body : α → Program Answer Error (α ⊕ β)) :
    ℕ → α → Program Answer Error (α ⊕ β)
  | 0, carried => .done (.inl carried)
  | rounds + 1, carried => stop.bind fun stopped =>
    if stopped then .done (.inl carried)
    else (body carried).bind fun
      | .inl carried => retry stop body rounds carried
      | .inr value => .done (.inr value)

/-- Go through a list for as long as the body says so. -/
def eachWhile (body : α → Program Answer Error Bool) : List α → Program Answer Error Bool
  | [] => .done true
  | first :: rest => (body first).bind fun goOn =>
    if goOn then eachWhile body rest else .done false

/-- Turn what is thrown into a result. -/
def attempt {Error' : Type y} :
    Program Answer Error α → Program Answer Error' (Except Error α)
  | .done value => .done (.ok value)
  | .fail error => .done (.error error)
  | .ask question next => .ask question fun answer => (next answer).attempt

/-- The whole dialogue of a program after what has been said, and how it ends. -/
def run (surroundings : Surroundings Answer) :
    Program Answer Error α → List (Said Answer) → List (Said Answer) × Except Error α
  | .done value, past => (past, .ok value)
  | .fail error, past => (past, .error error)
  | .ask question next, past =>
    run surroundings (next (surroundings past question))
      (past ++ [⟨question, surroundings past question⟩])

end Program

/-- Which questions a program may ask after a history, and which answers it can get. -/
structure Rules {Question : Type u} (Answer : Question → Type v) where
  may : List (Said Answer) → Question → Prop
  keeps : List (Said Answer) → (question : Question) → Answer question → Prop

namespace Program

variable {rules : Rules Answer}

/-- Every question of the program may be asked, and `post` holds of what has been said and of
the result when it ends. -/
def Meets (rules : Rules Answer) (post : List (Said Answer) → Except Error α → Prop) :
    Program Answer Error α → List (Said Answer) → Prop
  | .done value, past => post past (.ok value)
  | .fail error, past => post past (.error error)
  | .ask question next, past => rules.may past question ∧
    ∀ answer, rules.keeps past question answer →
      (next answer).Meets rules post (past ++ [⟨question, answer⟩])

/-- What is to hold after the first of two programs. -/
def Between (rules : Rules Answer) (post : List (Said Answer) → Except Error β → Prop)
    (next : α → Program Answer Error β) (past : List (Said Answer)) : Except Error α → Prop
  | .ok value => (next value).Meets rules post past
  | .error error => post past (.error error)

variable {post : List (Said Answer) → Except Error α → Prop}
  {after : List (Said Answer) → Except Error β → Prop} {past : List (Said Answer)}

@[simp] theorem meets_done {value : α} :
    (done value : Program Answer Error α).Meets rules post past ↔ post past (.ok value) := Iff.rfl

@[simp] theorem meets_pure {value : α} :
    (pure value : Program Answer Error α).Meets rules post past ↔ post past (.ok value) := Iff.rfl

@[simp] theorem meets_fail {error : Error} :
    (fail error : Program Answer Error α).Meets rules post past ↔ post past (.error error) :=
  Iff.rfl

@[simp] theorem between_ok {next : α → Program Answer Error β} {value : α} :
    Between rules after next past (.ok value) ↔ (next value).Meets rules after past := Iff.rfl

@[simp] theorem between_error {next : α → Program Answer Error β} {error : Error} :
    Between rules after next past (.error error) ↔ after past (.error error) := Iff.rfl

@[simp] theorem meets_ask {question : Question} {next : Answer question → Program Answer Error α} :
    (ask question next).Meets rules post past ↔ rules.may past question ∧
      ∀ answer, rules.keeps past question answer →
        (next answer).Meets rules post (past ++ [⟨question, answer⟩]) := Iff.rfl

@[simp] theorem bind_eq {α β : Type x} (program : Program Answer Error α)
    (next : α → Program Answer Error β) : program >>= next = program.bind next := rfl

@[simp] theorem meets_bind {program : Program Answer Error α} {next : α → Program Answer Error β} :
    (program.bind next).Meets rules after past ↔
      program.Meets rules (Between rules after next) past := by
  induction program generalizing past with
  | done value => rfl
  | fail error => rfl
  | ask question later ih => exact and_congr Iff.rfl (forall₂_congr fun answer _ => ih answer)

@[simp] theorem meets_query {question : Question}
    {post : List (Said Answer) → Except Error (Answer question) → Prop} :
    (query question : Program Answer Error _).Meets rules post past ↔
      rules.may past question ∧ ∀ answer, rules.keeps past question answer →
        post (past ++ [⟨question, answer⟩]) (.ok answer) := Iff.rfl

theorem meets_query_bind {question : Question} {next : Answer question → Program Answer Error β} :
    ((query question).bind next).Meets rules after past ↔ rules.may past question ∧
      ∀ answer, rules.keeps past question answer →
        (next answer).Meets rules after (past ++ [⟨question, answer⟩]) := Iff.rfl

@[simp] theorem meets_attempt {Error' : Type y} {program : Program Answer Error α}
    {post : List (Said Answer) → Except Error' (Except Error α) → Prop} :
    program.attempt.Meets rules post past ↔
      program.Meets rules (fun later result => post later (.ok result)) past := by
  induction program generalizing past with
  | done value => rfl
  | fail error => rfl
  | ask question next ih => exact and_congr Iff.rfl (forall₂_congr fun answer _ => ih answer)

/-- A program that meets something meets whatever follows from it. -/
theorem Meets.mono {program : Program Answer Error α}
    {weaker : List (Said Answer) → Except Error α → Prop}
    (meets : program.Meets rules post past)
    (implies : ∀ later result, post later result → weaker later result) :
    program.Meets rules weaker past := by
  induction program generalizing past with
  | done value => exact implies _ _ meets
  | fail error => exact implies _ _ meets
  | ask question next ih =>
    exact ⟨meets.1, fun answer kept => ih answer (meets.2 answer kept)⟩

/-- The first of two programs ends in something from which the second goes on. -/
theorem Meets.bind {program : Program Answer Error α} {next : α → Program Answer Error β}
    (meets : program.Meets rules post past)
    (returns : ∀ later value, post later (.ok value) → (next value).Meets rules after later)
    (throws : ∀ later error, post later (.error error) → after later (.error error)) :
    (program.bind next).Meets rules after past := by
  refine meets_bind.mpr (meets.mono fun later result held => ?_)
  cases result with
  | ok value => exact returns later value held
  | error error => exact throws later error held

/-- What holds at the end of a test, for each of its answers. -/
def Either (yes no : List (Said Answer) → Prop) (throws : List (Said Answer) → Error → Prop)
    (later : List (Said Answer)) : Except Error Bool → Prop
  | .ok true => yes later
  | .ok false => no later
  | .error error => throws later error

/-- What holds at the end of a round: `Inv` of the value carried on, or the aim of the loop. -/
def Carries (Inv : α → List (Said Answer) → Prop)
    (aim : List (Said Answer) → Except Error (α ⊕ β) → Prop) (later : List (Said Answer)) :
    Except Error (α ⊕ β) → Prop
  | .ok (.inl carried) => Inv carried later
  | .ok (.inr value) => aim later (.ok (.inr value))
  | .error error => aim later (.error error)

/-- The rule of a bounded loop: `Inv` holds before each round, and every way out of the loop
meets the aim. -/
theorem Meets.retry {stop : Program Answer Error Bool}
    {body : α → Program Answer Error (α ⊕ β)}
    {aim : List (Said Answer) → Except Error (α ⊕ β) → Prop}
    (Inv : α → List (Said Answer) → Prop)
    (exhausted : ∀ carried past, Inv carried past → aim past (.ok (.inl carried)))
    (round : ∀ carried past, Inv carried past →
      stop.Meets rules (Either (aim · (.ok (.inl carried)))
        ((body carried).Meets rules (Carries Inv aim)) (aim · <| .error ·)) past)
    {rounds : ℕ} {carried : α} (start : Inv carried past) :
    (Program.retry stop body rounds carried).Meets rules aim past := by
  induction rounds generalizing carried past with
  | zero => exact exhausted carried past start
  | succ rounds ih =>
    refine (round carried past start).bind (fun later stopped turned => ?_)
      fun later error turned => turned
    cases stopped with
    | true => exact turned
    | false =>
      refine Meets.bind turned (fun last ended carries => ?_) fun last error carries => carries
      cases ended with
      | inl carried => exact ih carries
      | inr value => exact carries

/-! ### What a program adds to a history -/

/-- What has been said is `past` and something of which `holds` is true. -/
def Extends (past : List (Said Answer)) (holds : List (Said Answer) → Except Error α → Prop)
    (later : List (Said Answer)) (result : Except Error α) : Prop :=
  ∃ said, later = past ++ said ∧ holds said result

/-- `holds` is true of what the program adds to a history and of its result. -/
def Adds (rules : Rules Answer) (past : List (Said Answer)) (program : Program Answer Error α)
    (holds : List (Said Answer) → Except Error α → Prop) : Prop :=
  program.Meets rules (Extends past holds) past

variable {holds : List (Said Answer) → Except Error α → Prop}
  {result : List (Said Answer) → Except Error β → Prop}

theorem adds_done {value : α} (held : holds [] (.ok value)) : Adds rules past (done value) holds :=
  ⟨[], by simp, held⟩

theorem adds_fail {error : Error} (held : holds [] (.error error)) :
    Adds rules past (fail error) holds :=
  ⟨[], by simp, held⟩

theorem adds_query {question : Question}
    {holds : List (Said Answer) → Except Error (Answer question) → Prop}
    (permitted : rules.may past question)
    (answered : ∀ answer, rules.keeps past question answer →
      holds [⟨question, answer⟩] (.ok answer)) :
    Adds rules past (query question) holds :=
  ⟨permitted, fun answer kept => ⟨_, rfl, answered answer kept⟩⟩

theorem Adds.mono {program : Program Answer Error α}
    {weaker : List (Said Answer) → Except Error α → Prop} (adds : Adds rules past program holds)
    (implies : ∀ said result, holds said result → weaker said result) :
    Adds rules past program weaker :=
  Meets.mono adds fun _ _ ⟨said, split, held⟩ => ⟨said, split, implies said _ held⟩

/-- What two programs add one after the other. -/
theorem Adds.bind {program : Program Answer Error α} {next : α → Program Answer Error β}
    (adds : Adds rules past program holds)
    (returns : ∀ said value, holds said (.ok value) →
      Adds rules (past ++ said) (next value) fun more ended => result (said ++ more) ended)
    (throws : ∀ said error, holds said (.error error) → result said (.error error)) :
    Adds rules past (program.bind next) result := by
  refine Meets.bind adds (fun later value added => ?_) fun later error added => ?_
  · obtain ⟨said, rfl, held⟩ := added
    refine Meets.mono (returns said value held) fun last ended further => ?_
    obtain ⟨more, rfl, both⟩ := further
    exact ⟨said ++ more, by simp, both⟩
  · obtain ⟨said, rfl, held⟩ := added
    exact ⟨said, rfl, throws said error held⟩

/-- What a program adds that begins with a question. -/
theorem adds_query_bind {question : Question} {next : Answer question → Program Answer Error β}
    (permitted : rules.may past question)
    (answered : ∀ answer, rules.keeps past question answer →
      Adds rules (past ++ [⟨question, answer⟩]) (next answer) fun more ended =>
        result (⟨question, answer⟩ :: more) ended) :
    Adds rules past ((query question).bind next) result := by
  refine ⟨permitted, fun answer kept => ?_⟩
  refine Meets.mono (answered answer kept) fun later ended added => ?_
  obtain ⟨more, rfl, held⟩ := added
  exact ⟨⟨question, answer⟩ :: more, by simp, held⟩

/-- The rule of a bounded loop for what it adds. -/
theorem Adds.retry {stop : Program Answer Error Bool} {body : α → Program Answer Error (α ⊕ β)}
    {aim : List (Said Answer) → Except Error (α ⊕ β) → Prop}
    (Inv : α → List (Said Answer) → Prop)
    (exhausted : ∀ carried said, Inv carried said → aim said (.ok (.inl carried)))
    (asks : ∀ carried said, Inv carried said → Adds rules (past ++ said) stop
      fun more answer => Either (fun more => aim (said ++ more) (.ok (.inl carried)))
        (fun more => Adds rules (past ++ (said ++ more)) (body carried) fun last ended =>
          Carries (fun carried last => Inv carried (said ++ more ++ last))
            (fun last => aim (said ++ more ++ last)) last ended)
        (fun more error => aim (said ++ more) (.error error)) more answer)
    {rounds : ℕ} {carried : α} (start : Inv carried []) :
    Adds rules past (Program.retry stop body rounds carried) aim := by
  refine Meets.retry (fun carried later => ∃ said, later = past ++ said ∧ Inv carried said) ?_
    ?_ ⟨[], by simp, start⟩
  · rintro carried later ⟨said, rfl, held⟩
    exact ⟨said, rfl, exhausted carried said held⟩
  · rintro carried later ⟨said, rfl, held⟩
    refine Meets.mono (asks carried said held) fun asked answer added => ?_
    obtain ⟨more, rfl, told⟩ := added
    match answer, told with
    | .ok true, told => exact ⟨said ++ more, by simp, told⟩
    | .error error, told => exact ⟨said ++ more, by simp, told⟩
    | .ok false, told =>
      rw [Either, List.append_assoc]
      refine Meets.mono told fun later ended added => ?_
      obtain ⟨last, rfl, carries⟩ := added
      match ended, carries with
      | .ok (.inl carried), carries => exact ⟨said ++ more ++ last, by simp, carries⟩
      | .ok (.inr value), carries => exact ⟨said ++ more ++ last, by simp, carries⟩
      | .error error, carries => exact ⟨said ++ more ++ last, by simp, carries⟩

/-! ### Whole runs -/

/-- Everything that was said was asked when it might be. -/
def Keeps (rules : Rules Answer) (past said : List (Said Answer)) : Prop :=
  ∀ before event after, said = before ++ event :: after →
    rules.may (past ++ before) event.question

theorem keeps_nil : Keeps rules past [] := by
  intro before event after split
  simp at split

theorem keeps_cons {event : Said Answer} {said : List (Said Answer)} :
    Keeps rules past (event :: said) ↔
      rules.may past event.question ∧ Keeps rules (past ++ [event]) said := by
  constructor
  · intro keeps
    refine ⟨by simpa using keeps [] event said rfl, fun before other after split => ?_⟩
    simpa using keeps (event :: before) other after (by simp [split])
  · rintro ⟨now, later⟩ before other after split
    cases before with
    | nil =>
      obtain ⟨rfl, rfl⟩ := List.cons.inj split
      simpa using now
    | cons first before =>
      obtain ⟨rfl, rfl⟩ := List.cons.inj split
      simpa using later before other after rfl

/-- Everything that was said was answered by the surroundings. -/
def AnsweredBy (surroundings : Surroundings Answer) (past said : List (Said Answer)) : Prop :=
  ∀ before event after, said = before ++ event :: after →
    event.answer = surroundings (past ++ before) event.question

theorem answeredBy_nil {surroundings : Surroundings Answer} :
    AnsweredBy surroundings past [] := by
  intro before event after split
  simp at split

theorem AnsweredBy.cons {surroundings : Surroundings Answer} {question : Question}
    {said : List (Said Answer)}
    (answered : AnsweredBy surroundings (past ++ [⟨question, surroundings past question⟩]) said) :
    AnsweredBy surroundings past (⟨question, surroundings past question⟩ :: said) := by
  rintro (_ | ⟨first, before⟩) event after split
  · obtain ⟨rfl, rfl⟩ := List.cons.inj split
    simp
  · obtain ⟨rfl, rfl⟩ := List.cons.inj split
    simpa using answered before event after rfl

/-- A run in surroundings that answer as the rules say is asked by the rules and ends as the
program meets. -/
theorem Meets.run {surroundings : Surroundings Answer}
    (faithful : ∀ past question, rules.keeps past question (surroundings past question))
    {program : Program Answer Error α} (meets : program.Meets rules post past) :
    ∃ said, (program.run surroundings past).1 = past ++ said ∧ Keeps rules past said ∧
      AnsweredBy surroundings past said ∧
      post (past ++ said) (program.run surroundings past).2 := by
  induction program generalizing past with
  | done value =>
    exact ⟨[], by simp [Program.run], keeps_nil, answeredBy_nil, by
      simpa [Program.run] using meets⟩
  | fail error =>
    exact ⟨[], by simp [Program.run], keeps_nil, answeredBy_nil, by
      simpa [Program.run] using meets⟩
  | ask question next ih =>
    obtain ⟨said, log, keeps, answered, ended⟩ := ih _ (meets.2 _ (faithful past question))
    refine ⟨⟨question, surroundings past question⟩ :: said, by simpa [Program.run] using log,
      keeps_cons.mpr ⟨meets.1, keeps⟩, answered.cons, by simpa [Program.run] using ended⟩

/-- A run from the beginning. -/
theorem Adds.run {surroundings : Surroundings Answer}
    (faithful : ∀ past question, rules.keeps past question (surroundings past question))
    {program : Program Answer Error α} (adds : Adds rules [] program holds) :
    ∃ said, (program.run surroundings []).1 = said ∧ Keeps rules [] said ∧
      AnsweredBy surroundings [] said ∧ holds said (program.run surroundings []).2 := by
  obtain ⟨said, log, keeps, answered, more, split, held⟩ := Meets.run faithful adds
  obtain rfl : said = more := by simpa using split
  exact ⟨said, by simpa using log, keeps, answered, held⟩

end Program

end Dls2.Dialogue
