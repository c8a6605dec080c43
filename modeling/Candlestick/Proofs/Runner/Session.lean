import Candlestick.Proofs.Runner.Output
import Candlestick.Proofs.Token.Thread

namespace Candlestick

namespace Runner

variable {α : Type} [Scalar α]

-- Whether the source cancels while it fetches for a request.
def cancels (r : Runner α) (request : Request) : Bool :=
  match r.resolve request with
  | .ok a => (a.source.fetch request.query).cancels
  | .error _ => false

-- A run does nothing to the token but cancel it.
theorem snd_run (r : Runner α) (request : Request) (token : Token) :
    (r.run request token).2 = if r.cancels request then token.cancel else token := by
  cases h : r.resolve request with
  | error e => simp [run, cancels, h]
  | ok a =>
      rw [run_of_resolve_eq_ok h, RangeAnalysis.snd_run, cancels, h]
      rfl

-- What can be done with a runner and a token.
inductive Step where
  | cancel
  | run (request : Request)

-- A run gives a result, a cancellation gives none.
def step (r : Runner α) : Step → Token → Option (Except AnalysisError (Output α)) × Token
  | .cancel, token => (none, token.cancel)
  | .run request, token => ((r.run request token).1, (r.run request token).2)

def stepCancels (r : Runner α) : Step → Bool
  | .cancel => true
  | .run request => r.cancels request

theorem snd_step (r : Runner α) (s : Step) (token : Token) :
    (r.step s token).2 = if r.stepCancels s then token.cancel else token := by
  cases s with
  | cancel => rfl
  | run request => exact r.snd_run request token

theorem stepCancels_sharing_iff {source : Source α} {ema : Ema} {keyLevels : KeyLevels α}
    {breakout : Breakout α} {s : Step} :
    (sharing source ema keyLevels breakout).stepCancels s = true ↔ s = .cancel ∨
      ∃ request, s = .run request ∧ (source.fetch request.query).cancels = true := by
  cases s with
  | cancel => simp [stepCancels]
  | run request =>
      obtain ⟨analysis, hresolve, -⟩ := resolve_sharing source ema keyLevels breakout request
      simp [stepCancels, cancels, hresolve]

-- The results of all steps, and the token after the last.
def session (r : Runner α) (token : Token) (steps : List Step) :
    List (Option (Except AnalysisError (Output α))) × Token :=
  token.thread r.step steps

section

variable (r : Runner α) (token : Token)

theorem cancelled_session_iff (steps : List Step) :
    (r.session token steps).2.cancelled = true ↔
      token.cancelled = true ∨ ∃ s ∈ steps, r.stepCancels s = true := by
  rw [session, Token.snd_thread, Token.through_eq r.snd_step, ← List.any_eq_true]
  split <;> simp [*]

theorem cancelled_session_append {done rest : List Step}
    (h : (r.session token done).2.cancelled = true) :
    (r.session token (done ++ rest)).2.cancelled = true := by
  rw [cancelled_session_iff] at h ⊢
  rcases h with h | ⟨s, hs, hc⟩
  · exact .inl h
  · exact .inr ⟨s, List.mem_append_left rest hs, hc⟩

theorem getElem?_session {steps : List Step} {i : Nat} {request : Request}
    (h : steps[i]? = some (.run request)) :
    (r.session token steps).1[i]? =
      some (some (r.run request (r.session token (steps.take i)).2).1) := by
  rw [session, session, Token.getElem?_fst_thread, Token.snd_thread, h]
  rfl

end

end Runner

-- A runner made from settings that pass their check, in any session. The token is cancelled once a
-- step or a fetch has cancelled it, and stays so; each run gives what its source delivers and the
-- token at that moment allow.
theorem Runner.sessions_settle_outcomes {settings : Settings}
    (h : Part.whole.check settings = .ok ()) (source : Source Float) :
    ∃ runner, Runner.ofSettings settings source = .ok runner ∧
      ∀ (token : Token) (steps : List Runner.Step),
        (∀ done rest, steps = done ++ rest → (runner.session token done).2.cancelled = true →
          (runner.session token steps).2.cancelled = true) ∧
        ((runner.session token steps).2.cancelled = true ↔ token.cancelled = true ∨
          ∃ s ∈ steps, s = .cancel ∨
            ∃ request, s = .run request ∧ (source.fetch request.query).cancels = true) ∧
        (runner.session token steps).1.length = steps.length ∧
        ∀ (i : Nat) (request : Request), steps[i]? = some (.run request) →
          ∃ analysis result, analysis.algorithm = request.algorithm ∧
            runner.resolve request = .ok ⟨source, analysis⟩ ∧
              (runner.session token steps).1[i]? = some (some result) ∧
                RangeAnalysis.Outcome ⟨source, analysis⟩ request
                  (runner.session token (steps.take i)).2 result := by
  obtain ⟨ema, keyLevels, breakout, hr, -⟩ := Runner.ofSettings_of_check h source
  refine ⟨_, hr, ?_⟩
  intro token steps
  refine ⟨?_, ?_, Token.length_fst_thread _ token steps, ?_⟩
  · rintro done rest rfl hc
    exact Runner.cancelled_session_append _ token hc
  · simp only [Runner.cancelled_session_iff, Runner.stepCancels_sharing_iff]
  · intro i request hi
    obtain ⟨analysis, hresolve, halg⟩ :=
      Runner.resolve_sharing source ema keyLevels breakout request
    refine ⟨analysis, _, halg, hresolve, Runner.getElem?_session _ token hi, ?_⟩
    have hmatch : (RangeAnalysis.mk source analysis).algorithm = request.algorithm := halg
    rw [Runner.run_of_resolve_eq_ok hresolve]
    exact RangeAnalysis.outcome_run hmatch _

-- The first fetch cancels. Its own run is too short to notice, the next one is not.
theorem Runner.sessions_settle_outcomes_interrupted :
    Part.whole.check Settings.standard = .ok () ∧
      ∃ runner, Runner.ofSettings .standard
          (.feed (.interrupting "desk" [⟨.epoch, 1, 3, 1, 2, 0⟩])) = .ok runner ∧
        (∃ output, (runner.session .fresh [.run (.of "BRK.B" .epoch .epoch .daily .ema),
            .run (.of "BRK.B" .epoch .epoch .daily .keyLevels)]).1[0]? =
          some (some (.ok output))) ∧
        ∃ analysis : Analysis Float, analysis.algorithm = .keyLevels ∧
          (runner.session .fresh [.run (.of "BRK.B" .epoch .epoch .daily .ema),
              .run (.of "BRK.B" .epoch .epoch .daily .keyLevels)]).1[1]? =
            some (some (.error (.cancelled analysis.stage))) := by
  have hcheck := (Part.check_whole_eq_ok_iff Settings.standard).mpr (by decide +kernel)
  refine ⟨hcheck, ?_⟩
  obtain ⟨runner, hr, hsession⟩ := Runner.sessions_settle_outcomes hcheck
    (.feed (.interrupting "desk" [⟨.epoch, 1, 3, 1, 2, 0⟩]))
  obtain ⟨-, -, -, hruns⟩ := hsession .fresh [.run (.of "BRK.B" .epoch .epoch .daily .ema),
    .run (.of "BRK.B" .epoch .epoch .daily .keyLevels)]
  refine ⟨runner, hr, ?_, ?_⟩
  · obtain ⟨analysis, result, -, -, hresult, hout⟩ := hruns 0 _ rfl
    have hshort : result ≠ .error (.cancelled analysis.stage) := fun hc =>
      absurd ((hout.cancelled _ rfl).mp hc).2 (by decide)
    obtain ⟨output, rfl, -⟩ := hout.output _ rfl hshort
    exact ⟨output, hresult⟩
  · obtain ⟨analysis, result, halg, -, hresult, hout⟩ := hruns 1 _ rfl
    obtain rfl := (hout.cancelled _ rfl).mpr ⟨.inr rfl, by decide⟩
    exact ⟨analysis, halg, hresult⟩

end Candlestick
