import Candlestick.Proofs.Runner.Output

namespace Candlestick

variable {α : Type}

-- An empty value in place of a mismatch; every other error stays.
def Shape.orEmpty (shape : Shape) :
    Except AnalysisError (shape.Value α) → Except AnalysisError (shape.Value α)
  | .error (.mismatch _ _) => .ok (empty α shape)
  | result => result

theorem Shape.orEmpty_eq_error_iff {shape : Shape} {result : Except AnalysisError (shape.Value α)}
    {error : AnalysisError} :
    shape.orEmpty result = .error error ↔
      result = .error error ∧ ∀ declared actual, error ≠ .mismatch declared actual := by
  cases result with
  | ok value => simp [orEmpty]
  | error e =>
      cases e with
      | mismatch declared actual =>
          refine iff_of_false (by simp [orEmpty]) ?_
          rintro ⟨he, hne⟩
          exact hne declared actual (Except.error.inj he).symm
      | noMatch | cancelled | fetch | parameters =>
          refine (and_iff_left_of_imp fun he => ?_).symm
          rintro declared actual rfl
          cases he

-- Levels are the one thing that an output can lack.
theorem Output.narrow_eq_error_iff {shape : Shape} {output : Output α} {error : AnalysisError} :
    output.narrow shape = .error error ↔
      shape = .keyLevels ∧ output.shape ≠ .keyLevels ∧
        error = .mismatch "key_levels" "candles" := by
  cases shape <;> cases output <;> simp [narrow, narrow?, Output.shape, Shape.name, eq_comm]

theorem Output.orEmpty_narrow (shape : Shape) (output : Output α) :
    shape.orEmpty (output.narrow shape) =
      .ok ((output.narrow? shape).getD (Shape.empty α shape)) := by
  rw [narrow]
  cases output.narrow? shape <;> rfl

variable [Scalar α]

namespace RangeAnalysis

variable {a : RangeAnalysis α} {request : Request} {token : Token}

theorem fst_runAs (a : RangeAnalysis α) (shape : Shape) (request : Request) (token : Token) :
    (a.runAs shape request token).1 = (a.run request token).1.bind (Output.narrow shape) := rfl

theorem run_ne_mismatch {declared actual : String} :
    (a.run request token).1 ≠ .error (.mismatch declared actual) :=
  run_ne_error (by simp) (by simp)

theorem shape_of_run_eq_ok {output : Output α} (h : (a.run request token).1 = .ok output) :
    output.shape = .keyLevels ↔ a.algorithm = .keyLevels := by
  obtain ⟨candles, -, hout⟩ := isOf_of_run_eq_ok h
  exact hout.shape

theorem runAs_eq_mismatch_iff {shape : Shape} {declared actual : String} :
    (a.runAs shape request token).1 = .error (.mismatch declared actual) ↔
      (∃ output, (a.run request token).1 = .ok output) ∧ shape = .keyLevels ∧
        a.algorithm ≠ .keyLevels ∧ declared = "key_levels" ∧ actual = "candles" := by
  rw [fst_runAs]
  cases h : (a.run request token).1 with
  | error e =>
      refine iff_of_false ?_ (by simp)
      intro he
      obtain rfl := Except.error.inj he
      exact run_ne_mismatch h
  | ok output =>
      have hnarrow : (Except.ok output : Except AnalysisError _).bind (Output.narrow shape) =
          output.narrow shape := rfl
      have hshape := shape_of_run_eq_ok h
      rw [hnarrow, Output.narrow_eq_error_iff, Ne, hshape]
      simp

end RangeAnalysis

namespace Runner

theorem fst_runAs (r : Runner α) (shape : Shape) (request : Request) (token : Token) :
    (r.runAs shape request token).1 = (r.run request token).1.map fun output =>
      (output.narrow? shape).getD (Shape.empty α shape) := rfl

theorem runAs_of_resolve_eq_ok {r : Runner α} {request : Request} {a : RangeAnalysis α}
    (h : r.resolve request = .ok a) (shape : Shape) (token : Token) :
    r.runAs shape request token =
      (shape.orEmpty (a.runAs shape request token).1, (a.runAs shape request token).2) := by
  have hrun := run_of_resolve_eq_ok h token
  have htoken : (r.runAs shape request token).2 = (a.runAs shape request token).2 := by
    change (r.run request token).2 = (a.run request token).2
    rw [hrun]
  refine Prod.ext ?_ htoken
  rw [fst_runAs, hrun, RangeAnalysis.fst_runAs]
  cases hresult : (a.run request token).1 with
  | ok output => exact (output.orEmpty_narrow shape).symm
  | error e =>
      have hstay : shape.orEmpty (.error e : Except _ (shape.Value α)) = .error e := by
        refine Shape.orEmpty_eq_error_iff.mpr ⟨rfl, ?_⟩
        rintro declared actual rfl
        exact RangeAnalysis.run_ne_mismatch hresult
      exact hstay.symm

theorem runAs_of_resolve_eq_error {r : Runner α} {request : Request} {e : AnalysisError}
    (h : r.resolve request = .error e) (shape : Shape) (token : Token) :
    r.runAs shape request token = (.error e, token) := by
  simp only [runAs, run, h]
  rfl

-- Whether a request is answered hangs on the analyses, and not on their sources.
theorem resolve_eq_error_iff {r : Runner α} {request : Request} {e : AnalysisError} :
    r.resolve request = .error e ↔
      (∀ analysis ∈ r.analyses.map RangeAnalysis.analysis,
        analysis.algorithm ≠ request.algorithm) ∧
      e = .noMatch ⟨(r.analyses.map RangeAnalysis.analysis).map fun a => a.algorithm.message⟩ := by
  have hnames : (r.analyses.map fun a => a.algorithm.message) =
      (r.analyses.map RangeAnalysis.analysis).map fun a => a.algorithm.message := by
    rw [List.map_map]
    rfl
  rw [resolve_eq, hnames]
  cases hfind : r.analyses.find? fun a => request.algorithm = a.algorithm with
  | some a =>
      have hmatch := List.find?_some hfind
      refine iff_of_false (by simp) fun h => ?_
      exact h.1 a.analysis (List.mem_map_of_mem (List.mem_of_find?_eq_some hfind))
        (of_decide_eq_true hmatch).symm
  | none =>
      have hnone : ∀ analysis ∈ r.analyses.map RangeAnalysis.analysis,
          analysis.algorithm ≠ request.algorithm := by
        intro analysis hmem heq
        obtain ⟨a, ha, rfl⟩ := List.mem_map.mp hmem
        exact List.find?_eq_none.mp hfind a ha (decide_eq_true heq.symm)
      constructor
      · intro h
        exact ⟨hnone, (Except.error.inj h).symm⟩
      · rintro ⟨-, rfl⟩
        rfl

end Runner

-- A runner does what the analysis that it resolves does, with an empty value for a mismatch. If it
-- resolves none it fails at once: the outcome is the same whatever the sources are, and the token
-- is as it was.
theorem Runner.runAs_follows_resolved_analysis (r : Runner α) (shape : Shape) (request : Request)
    (token : Token) :
    match r.resolve request with
    | .ok a =>
      r.runAs shape request token =
          (shape.orEmpty (a.runAs shape request token).1, (a.runAs shape request token).2) ∧
        (∀ declared actual,
          (a.runAs shape request token).1 = .error (.mismatch declared actual) ↔
            (∃ output, (a.run request token).1 = .ok output) ∧ shape = .keyLevels ∧
              a.algorithm ≠ .keyLevels ∧ declared = "key_levels" ∧ actual = "candles") ∧
        ∀ error, (r.runAs shape request token).1 = .error error ↔
          (a.runAs shape request token).1 = .error error ∧
            ∀ declared actual, error ≠ .mismatch declared actual
    | .error e =>
      e = .noMatch ⟨r.analyses.map fun a => a.algorithm.message⟩ ∧
        ∀ other : Runner α,
          other.analyses.map RangeAnalysis.analysis = r.analyses.map RangeAnalysis.analysis →
            other.runAs shape request token = (.error e, token) := by
  cases h : r.resolve request with
  | ok a =>
      have hrun := runAs_of_resolve_eq_ok h shape token
      refine ⟨hrun, fun _ _ => RangeAnalysis.runAs_eq_mismatch_iff, fun error => ?_⟩
      rw [hrun]
      exact Shape.orEmpty_eq_error_iff
  | error e =>
      have hnone := resolve_eq_error_iff.mp h
      refine ⟨by rw [hnone.2, List.map_map]; rfl, ?_⟩
      intro other hanalyses
      have hother : other.resolve request = .error e := by
        rw [resolve_eq_error_iff, hanalyses]
        exact hnone
      exact runAs_of_resolve_eq_error hother shape token

end Candlestick
