import CanonicalTokens.Pipeline

/-!
# Nested pipelines

A pipeline may be a step of another one, to any depth. Written out from left to right, without the
nesting, its single steps stand in a row, and the row decides what runs: every step takes the output
of the one before, the first that fails is the last to run, and its failure comes out of all the
pipelines around it as it is. Two pipelines with the same row cannot be told apart.

That a step runs, and only once, can be seen in two ways. Steps may change a world of any type, and
a run has to hand on the world that each of them leaves. And a pipeline can be made to write down
the numbers of its steps while it runs.
-/

namespace CanonicalTokens

inductive Steps (m : Type → Type) (Failure : Type) : Type → Type → Type 1 where
  | nil {Input : Type} : Steps m Failure Input Input
  | cons {Input Middle Output : Type} (step : Input → m (Except Failure Middle))
      (rest : Steps m Failure Middle Output) : Steps m Failure Input Output

namespace Steps

section

variable {m : Type → Type} {Failure : Type}

def length {Input Output : Type} : Steps m Failure Input Output → Nat
  | nil => 0
  | cons _ rest => rest.length + 1

def append {Input Middle Output : Type} :
    Steps m Failure Input Middle → Steps m Failure Middle Output → Steps m Failure Input Output
  | nil, back => back
  | cons step rest, back => cons step (rest.append back)

def run [Monad m] {Input Output : Type} :
    Steps m Failure Input Output → Input → m (Except Failure Output)
  | nil, input => return .ok input
  | cons step rest, input => do
    match ← step input with
    | .ok value => rest.run value
    | .error failure => return .error failure

/-- The step, which writes down its number before it does its work. -/
def noted [Monad m] {Input Output : Type} (number : Nat)
    (step : Input → m (Except Failure Output)) (input : Input) :
    StateT (List Nat) m (Except Failure Output) := do
  modify (· ++ [number])
  step input

/-- The steps with their numbers, counted from the given one on. -/
def recorded [Monad m] {Input Output : Type} (start : Nat) :
    Steps m Failure Input Output → Steps (StateT (List Nat) m) Failure Input Output
  | nil => nil
  | cons step rest => cons (noted start step) (rest.recorded (start + 1))

end

end Steps

namespace Pipeline

variable {m : Type → Type} {Failure : Type}

def steps {Input Output : Type} :
    Pipeline m Failure Input Output → Steps m Failure Input Output
  | identity => .nil
  | andThen pipeline step => pipeline.steps.append (.cons step .nil)
  | andThenAll pipeline next => pipeline.steps.append next.steps

/-- The pipeline with the same nesting whose steps write down their numbers, counted from the given
one on. -/
def recorded [Monad m] {Input Output : Type} (start : Nat) :
    Pipeline m Failure Input Output → Pipeline (StateT (List Nat) m) Failure Input Output
  | identity => identity
  | andThen pipeline step =>
    (pipeline.recorded start).andThen (Steps.noted (start + pipeline.steps.length) step)
  | andThenAll pipeline next =>
    (pipeline.recorded start).andThenAll (next.recorded (start + pipeline.steps.length))

end Pipeline

/-! ### Runs in any monad -/

namespace Steps

variable {m : Type → Type} {Failure Input Middle Output Final : Type}

@[simp]
theorem nil_append (back : Steps m Failure Input Output) : nil.append back = back := by
  rw [append]

@[simp]
theorem cons_append (step : Input → m (Except Failure Middle))
    (rest : Steps m Failure Middle Output) (back : Steps m Failure Output Final) :
    (cons step rest).append back = cons step (rest.append back) := by
  rw [append]

@[simp]
theorem append_nil (steps : Steps m Failure Input Output) : steps.append nil = steps := by
  induction steps with
  | nil => rfl
  | cons step rest ih => rw [cons_append, ih]

theorem recorded_append [Monad m] (front : Steps m Failure Input Middle)
    (back : Steps m Failure Middle Output) (start : Nat) :
    (front.append back).recorded start =
      (front.recorded start).append (back.recorded (start + front.length)) := by
  induction front generalizing start with
  | nil => simp [recorded, length]
  | cons step rest ih => simp [recorded, length, ih, Nat.add_assoc, Nat.add_comm 1]

variable [Monad m] [LawfulMonad m]

theorem run_singleton (step : Input → m (Except Failure Output)) (input : Input) :
    (cons step nil).run input = step input := by
  calc (cons step nil).run input
      = step input >>= pure := by
        rw [run]
        congr 1
        funext result
        cases result <;> rfl
    _ = step input := bind_pure _

/-- Steps put together run as the first ones and then the others, on the value that comes out of the
first ones. -/
theorem run_append (front : Steps m Failure Input Middle) (back : Steps m Failure Middle Output)
    (input : Input) :
    (front.append back).run input = (do
      match ← front.run input with
      | .ok value => back.run value
      | .error failure => return .error failure) := by
  induction front with
  | nil => simp [run]
  | cons step rest ih =>
    simp only [cons_append, run, bind_assoc]
    congr 1
    funext result
    cases result with
    | ok value => exact ih back value
    | error failure => simp

theorem run_noted (number : Nat) (step : Input → m (Except Failure Output)) (input : Input)
    (seen : List Nat) :
    (noted number step input).run seen = (·, seen ++ [number]) <$> step input := by
  simp [noted]

/-- To write the numbers down changes nothing else. -/
theorem fst_run_recorded (steps : Steps m Failure Input Output) (start : Nat) (input : Input)
    (seen : List Nat) :
    Prod.fst <$> ((steps.recorded start).run input).run seen = steps.run input := by
  induction steps generalizing start seen with
  | nil => simp [recorded, run]
  | cons step rest ih =>
    simp only [recorded, run, StateT.run_bind, run_noted, map_bind, bind_map_left]
    congr 1
    funext result
    cases result with
    | ok value => exact ih (start + 1) value (seen ++ [start])
    | error failure => simp

end Steps

namespace Pipeline

variable {m : Type → Type} {Failure Input Output : Type}

theorem steps_recorded [Monad m] (pipeline : Pipeline m Failure Input Output) (start : Nat) :
    (pipeline.recorded start).steps = pipeline.steps.recorded start := by
  induction pipeline generalizing start with
  | identity => rfl
  | andThen pipeline step ih =>
    simp [recorded, steps, Steps.recorded_append, Steps.recorded, ih]
  | andThenAll pipeline next ih ihNext =>
    simp [recorded, steps, Steps.recorded_append, ih, ihNext]

variable [Monad m] [LawfulMonad m]

/-- A pipeline runs as its single steps do. -/
theorem run_eq_run_steps (pipeline : Pipeline m Failure Input Output) (input : Input) :
    pipeline.run input = pipeline.steps.run input := by
  induction pipeline with
  | identity => rfl
  | andThen pipeline step ih =>
    rw [run, steps, Steps.run_append, ih]
    congr 1
    funext result
    cases result with
    | ok value => exact (Steps.run_singleton step value).symm
    | error failure => rfl
  | andThenAll pipeline next ih ihNext =>
    rw [run, steps, Steps.run_append, ih]
    congr 1
    funext result
    cases result with
    | ok value => exact ihNext value
    | error failure => rfl

/-- In any monad, what a pipeline does hangs on its single steps and not on their nesting. -/
theorem run_eq_of_steps_eq {pipeline other : Pipeline m Failure Input Output}
    (hsteps : other.steps = pipeline.steps) : other.run = pipeline.run := by
  funext input
  rw [run_eq_run_steps, run_eq_run_steps, hsteps]

end Pipeline

/-! ### Runs that change a world -/

namespace Steps

variable {Failure World Input Middle Output : Type}

/-- All steps pass: each is run once, on the output of the one before and in the world that this
one has left. -/
inductive Passes : {Input Output : Type} → Steps (StateM World) Failure Input Output → Input →
    World → Output → World → Prop
  | nil {Input : Type} {input : Input} {world : World} : Passes .nil input world input world
  | cons {Input Middle Output : Type} {step : Input → StateM World (Except Failure Middle)}
      {rest : Steps (StateM World) Failure Middle Output} {input : Input} {value : Middle}
      {output : Output} {world next final : World}
      (hstep : (step input).run world = (.ok value, next))
      (hrest : Passes rest value next output final) :
      Passes (.cons step rest) input world output final

inductive Ends {Input Output : Type} (steps : Steps (StateM World) Failure Input Output)
    (input : Input) (world : World) : Nat → Except Failure Output → World → Prop
  | passed {output : Output} {final : World} (hpasses : steps.Passes input world output final) :
      Ends steps input world steps.length (.ok output) final
  | failed {Middle After : Type} {front : Steps (StateM World) Failure Input Middle}
      {step : Middle → StateM World (Except Failure After)}
      {back : Steps (StateM World) Failure After Output} {value : Middle} {next final : World}
      {failure : Failure} (hsplit : steps = front.append (.cons step back))
      (hpasses : front.Passes input world value next)
      (hstep : (step value).run next = (.error failure, final)) :
      Ends steps input world (front.length + 1) (.error failure) final

section

variable {step : Input → StateM World (Except Failure Middle)}
  {rest : Steps (StateM World) Failure Middle Output} {input : Input} {value : Middle}
  {world next : World} {failure : Failure} (start : Nat) (seen : List Nat)

theorem run_recorded_cons_of_ok (hstep : (step input).run world = (.ok value, next)) :
    ((((cons step rest).recorded start).run input).run seen).run world =
      (((rest.recorded (start + 1)).run value).run (seen ++ [start])).run next := by
  simp only [recorded, run, StateT.run_bind, run_noted, bind_map_left, hstep]
  rfl

theorem run_recorded_cons_of_error (hstep : (step input).run world = (.error failure, next)) :
    ((((cons step rest).recorded start).run input).run seen).run world =
      ((.error failure, seen ++ [start]), next) := by
  simp only [recorded, run, StateT.run_bind, run_noted, bind_map_left, hstep]
  rfl

end

/-- Behind steps that pass, a run goes on with their output, in the world that they leave. -/
theorem Passes.run_recorded {front : Steps (StateM World) Failure Input Middle} {input : Input}
    {value : Middle} {world next : World} (hpasses : front.Passes input world value next)
    (back : Steps (StateM World) Failure Middle Output) (start : Nat) (seen : List Nat) :
    ((((front.append back).recorded start).run input).run seen).run world =
      (((back.recorded (start + front.length)).run value).run
        (seen ++ List.range' start front.length)).run next := by
  induction hpasses generalizing start seen with
  | nil => simp [length]
  | cons hstep _ ih =>
    rw [cons_append, run_recorded_cons_of_ok start seen hstep, ih back (start + 1), length,
      List.range'_succ, List.append_assoc, Nat.add_right_comm, Nat.add_assoc start]
    rfl

variable {steps : Steps (StateM World) Failure Input Output} {input : Input} {world final : World}
  {count : Nat} {result : Except Failure Output}

/-- A run with a record is the run without it, and the record numbers the steps that were made. -/
theorem Ends.run_recorded (hends : steps.Ends input world count result final) (start : Nat)
    (seen : List Nat) :
    (((steps.recorded start).run input).run seen).run world =
      ((result, seen ++ List.range' start count), final) := by
  cases hends with
  | passed hpasses =>
    have hrun := hpasses.run_recorded nil start seen
    rw [append_nil] at hrun
    exact hrun
  | failed hsplit hpasses hstep =>
    rw [hsplit, hpasses.run_recorded, run_recorded_cons_of_error _ _ hstep, List.append_assoc,
      List.range'_1_concat]

/-- A step that passes adds one to what runs behind it, and changes nothing of how that ends. -/
theorem Ends.cons {step : Input → StateM World (Except Failure Middle)}
    {rest : Steps (StateM World) Failure Middle Output} {value : Middle} {next : World}
    (hstep : (step input).run world = (.ok value, next))
    (hends : rest.Ends value next count result final) :
    (Steps.cons step rest).Ends input world (count + 1) result final := by
  cases hends with
  | passed hpasses => exact .passed (.cons hstep hpasses)
  | failed hsplit hpasses hfails =>
    exact .failed (by rw [hsplit, cons_append]) (.cons hstep hpasses) hfails

/-- Every run comes to an end, behind all steps or at the first one that fails. -/
theorem exists_ends (steps : Steps (StateM World) Failure Input Output) (input : Input)
    (world : World) : ∃ count result final, steps.Ends input world count result final := by
  induction steps generalizing world with
  | nil => exact ⟨_, _, _, .passed .nil⟩
  | cons step rest ih =>
    rcases hstep : (step input).run world with ⟨outcome, next⟩
    cases outcome with
    | ok value =>
      obtain ⟨count, result, final, hends⟩ := ih value next
      exact ⟨count + 1, result, final, hends.cons hstep⟩
    | error failure =>
      exact ⟨1, .error failure, next, .failed (nil_append _).symm .nil hstep⟩

end Steps

namespace Pipeline

variable {World Failure Input Output : Type}

/-- A run of a pipeline ends with a result and leaves a world, and as many of the single steps have
run as the count says, each once and from left to right. -/
structure Runs (pipeline : Pipeline (StateM World) Failure Input Output) (input : Input)
    (world : World) (count : Nat) (result : Except Failure Output) (final : World) : Prop where
  ends : (pipeline.run input).run world = (result, final)
  notes : ∀ seen : List Nat, (((pipeline.recorded 0).run input).run seen).run world =
    ((result, seen ++ List.range count), final)

variable {pipeline : Pipeline (StateM World) Failure Input Output} {input : Input}
  {world final : World} {count : Nat} {result : Except Failure Output}

theorem runs_of_ends (hends : pipeline.steps.Ends input world count result final) :
    pipeline.Runs input world count result final where
  ends := by
    rw [run_eq_run_steps, ← Steps.fst_run_recorded pipeline.steps 0 input [], StateT.run_map,
      hends.run_recorded]
    rfl
  notes seen := by
    rw [run_eq_run_steps, steps_recorded, hends.run_recorded, List.range_eq_range']

theorem Runs.unique {number : Nat} {outcome : Except Failure Output} {last : World}
    (hruns : pipeline.Runs input world count result final)
    (hother : pipeline.Runs input world number outcome last) :
    number = count ∧ outcome = result ∧ last = final := by
  have hends : (outcome, last) = (result, final) := hother.ends.symm.trans hruns.ends
  have hnotes := (hother.notes []).symm.trans (hruns.notes [])
  have hcount : List.range number = List.range count := by
    simpa using congrArg (fun noted => noted.1.2) hnotes
  obtain ⟨hresult, hfinal⟩ := Prod.mk.inj hends
  exact ⟨by simpa using congrArg List.length hcount, hresult, hfinal⟩

theorem runs_iff_ends :
    pipeline.Runs input world count result final ↔
      pipeline.steps.Ends input world count result final := by
  refine ⟨?_, runs_of_ends⟩
  intro hruns
  obtain ⟨number, outcome, last, hends⟩ := pipeline.steps.exists_ends input world
  obtain ⟨rfl, rfl, rfl⟩ := hruns.unique (runs_of_ends hends)
  exact hends

/-- However it is nested, a pipeline runs its single steps from left to right up to the first that
fails, and it does what every other pipeline with these steps does. -/
theorem runs_flattened (pipeline : Pipeline (StateM World) Failure Input Output) (input : Input)
    (world : World) :
    (∃ count result final, pipeline.Runs input world count result final) ∧
    (∀ count result final, pipeline.Runs input world count result final ↔
      pipeline.steps.Ends input world count result final) ∧
    ∀ other : Pipeline (StateM World) Failure Input Output, other.steps = pipeline.steps →
      other.run = pipeline.run ∧ (other.recorded 0).run = (pipeline.recorded 0).run := by
  obtain ⟨count, result, final, hends⟩ := pipeline.steps.exists_ends input world
  refine ⟨⟨count, result, final, runs_of_ends hends⟩, fun _ _ _ => runs_iff_ends, ?_⟩
  intro other hsteps
  refine ⟨run_eq_of_steps_eq hsteps, run_eq_of_steps_eq ?_⟩
  rw [steps_recorded, steps_recorded, hsteps]

/-- Two pipelines deep or not, the steps are the same three. -/
example (first second third : Nat → StateM World (Except Failure Nat)) :
    ((identity.andThenAll ((identity.andThen first).andThenAll (identity.andThen second))).andThen
      third).steps = (((identity.andThen first).andThen second).andThen third).steps := rfl

end Pipeline

end CanonicalTokens
