import Candlestick.CommandLine
import Candlestick.Proofs.Files
import Candlestick.Proofs.Json.Records
import Candlestick.Proofs.Runner.Output
import Candlestick.Proofs.Settings.Gates
import Candlestick.Proofs.Settings.Saving
import Candlestick.Proofs.Source.Archive

namespace Candlestick

-- The parameters of an analysis are those of the settings. The pivots of breakouts are found as the
-- key levels are.
def Analysis.Follows (settings : Settings) : Analysis Float → Prop
  | ema e => e.params = settings.ema
  | keyLevels k => k.params = settings.keyLevels
  | breakout b => b.params = settings.breakout ∧ b.pivots.params = settings.keyLevels

-- Settings that pass their check have an analysis for every algorithm.
theorem Runner.exists_follows {settings : Settings} (h : Part.whole.check settings = .ok ())
    (source : Source Float) :
    ∃ runner, Runner.ofSettings settings source = .ok runner ∧ ∀ request : Request,
      ∃ analysis, runner.resolve request = .ok ⟨source, analysis⟩ ∧
        analysis.Follows settings ∧ analysis.algorithm = request.algorithm := by
  obtain ⟨ema, keyLevels, breakout, hr, hema, hlevels, hbreakout, rfl⟩ :=
    Runner.ofSettings_of_check h source
  refine ⟨_, hr, fun request => ?_⟩
  obtain ⟨analysis, hresolve, halg⟩ := Runner.resolve_sharing source ema breakout.pivots breakout
    request
  refine ⟨analysis, hresolve, ?_, halg⟩
  obtain ⟨hmem, -⟩ := Runner.mem_of_resolve_eq_ok hresolve
  simp only [Runner.sharing, List.mem_cons, RangeAnalysis.mk.injEq, List.not_mem_nil, or_false,
    true_and] at hmem
  rcases hmem with rfl | rfl | rfl
  · exact hema
  · exact hlevels
  · exact ⟨hbreakout, hlevels⟩

-- What a file gives has been checked.
theorem Part.check_of_loadFile {part : Part} {files : Files} {path : String}
    {format? : Option Format} {value : part.Value}
    (h : part.loadFile files path format? = .ok value) : part.check value = .ok () := by
  obtain ⟨format, -, hload⟩ := bind_eq_ok_iff.mp h
  split at hload
  · contradiction
  · exact (load_eq_ok_iff.mp hload).2

namespace CommandLine

-- The settings of a command: the standard ones, or those that are loaded from its file.
inductive Configured (files : Files) : Option String → Settings → Prop where
  | standard : Configured files none .standard
  | loaded {path : String} {settings : Settings}
      (h : Part.whole.loadFile files path none = .ok settings) :
      Configured files (some path) settings

section

variable {files : Files} {settings? : Option String} {settings : Settings}

theorem Configured.readSettings (h : Configured files settings? settings) :
    readSettings files settings? = .ok settings := by
  cases h with
  | standard => rfl
  | loaded h =>
      unfold CommandLine.readSettings
      simp only [h]

theorem Configured.check (h : Configured files settings? settings) :
    Part.whole.check settings = .ok () := by
  cases h with
  | standard => exact Settings.check_standard
  | loaded h => exact Part.check_of_loadFile h

end

section

variable {files : Files} {algorithm : Algorithm} {path text : String} {settings : Settings}
  {candles : List (Candle Float)}

theorem readCandles_of_read (htext : files.read path = .ok text)
    (hcandles : (Json.read? text).bind Candle.listOfJson? = some candles) :
    readCandles files path = .ok candles := by
  rw [readCandles, htext]
  simp only [hcandles]

theorem analyse_of_empty (h : readCandles files path = .ok []) :
    analyse files algorithm path settings = .ok [] := by
  rw [analyse, h]
  rfl

-- The archive has the candles under the ticker that the request asks for, and the request asks for
-- all of them.
theorem fetch_archive (algorithm : Algorithm) (path : String) {first last : Candle Float}
    (hfirst : candles.head? = some first) (hlast : candles.getLast? = some last)
    (htimes : EnclosedByEnds candles) :
    (Source.feed (archive path candles).toFeed).fetch (request algorithm path first last).query =
      .of (.ok candles) := by
  have hwithin : Archive.within (request algorithm path first last).query candles = candles :=
    Archive.within_eq_self (htimes first hfirst last hlast)
  rw [Archive.fetch_toFeed, archive, Archive.fetch_withSeries rfl rfl, hwithin]

theorem analyse_of_run {first last : Candle Float} {runner : Runner Float} {output : Output Float}
    (hread : readCandles files path = .ok candles) (hfirst : candles.head? = some first)
    (hlast : candles.getLast? = some last)
    (hrunner : Runner.ofSettings settings (.feed (archive path candles).toFeed) = .ok runner)
    (hrun : (runner.run (request algorithm path first last) .fresh).1 = .ok output) :
    analyse files algorithm path settings = .ok (report output) := by
  rw [analyse, hread]
  simp only [bind, Except.bind, hfirst, hlast, hrunner, hrun]
  rfl

theorem analyse_of_enclosed (algorithm : Algorithm) {first last : Candle Float}
    (hread : readCandles files path = .ok candles) (hfirst : candles.head? = some first)
    (hlast : candles.getLast? = some last) (htimes : EnclosedByEnds candles)
    (hcheck : Part.whole.check settings = .ok ()) :
    ∃ analysis : Analysis Float, analysis.Follows settings ∧ analysis.algorithm = algorithm ∧
      analyse files algorithm path settings = .ok (report (analysis.output candles)) := by
  obtain ⟨runner, hrunner, hresolves⟩ :=
    Runner.exists_follows hcheck (.feed (archive path candles).toFeed)
  obtain ⟨analysis, hresolve, hfollows, halg⟩ := hresolves (request algorithm path first last)
  refine ⟨analysis, hfollows, halg, analyse_of_run hread hfirst hlast hrunner ?_⟩
  have hfetch := fetch_archive algorithm path hfirst hlast htimes
  have hresult := congrArg Delivery.result hfetch
  rw [Runner.run_of_resolve_eq_ok hresolve, RangeAnalysis.run_of_fetch_eq_ok hresult, hfetch,
    Analysis.run_eq, if_neg (by simp [Token.after, Delivery.of, Token.fresh])]

theorem perform_of_configured {name : String} {settings? : Option String}
    (hname : Algorithm.ofText name = .ok algorithm)
    (hsettings : Configured files settings? settings) :
    perform files name path settings? = analyse files algorithm path settings := by
  rw [perform, hname]
  simp only [bind, Except.bind, hsettings.readSettings]

theorem run_of_perform {name : String} {rest lines : List String}
    (h : perform files name path rest.head? = .ok lines) :
    run (name :: path :: rest) files = ⟨true, lines⟩ := by
  rw [run, h]

end

-- The lines after those of the candles: the levels and those nearest to the last close, after a
-- key-level analysis, and none after the others.
inductive Closing : Algorithm → Output Float → List String → Prop where
  | none {algorithm : Algorithm} {output : Output Float} (h : algorithm ≠ .keyLevels) :
      Closing algorithm output []
  | levels {result : KeyLevels.Result Float} {levels : List Float} {percentage : Nat}
      (h : result.nearest 100 1 = (levels, percentage)) :
      Closing .keyLevels (.keyLevels result)
        ["키 레벨: " ++ levelList result.levels,
          "마지막 종가와 가까운 레벨: " ++ levelList levels ++ " (" ++
            Decimal.writeNat percentage ++ "%)"]

theorem exists_closing {output : Output Float} {algorithm : Algorithm}
    (h : output.shape = .keyLevels ↔ algorithm = .keyLevels) :
    ∃ closing, Closing algorithm output closing ∧
      report output = output.labelled.map (·.toRow.write) ++ closing := by
  cases output with
  | candles labelled =>
      have hother : algorithm ≠ .keyLevels := fun hkey =>
        absurd (h.mpr hkey) (by simp [Output.shape])
      exact ⟨[], .none hother, rfl⟩
  | keyLevels result =>
      obtain rfl : algorithm = .keyLevels := h.mp rfl
      exact ⟨_, .levels rfl, rfl⟩

end CommandLine

end Candlestick
