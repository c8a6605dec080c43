import Candlestick.Proofs.Runner.Session

namespace Candlestick

namespace Token

variable {γ : Type}

-- A way to bring several operations on one token to their ends.
def Join (γ : Type) : Type := List (Token → γ × Token) → Token → List γ × Token

-- No operation waits for anything: it is done before the next one begins, and results are given in
-- the order of the operations.
structure Join.InOrder (join : Join γ) : Prop where
  nil : ∀ token, join [] token = ([], token)
  cons : ∀ operation rest token, join (operation :: rest) token =
    ((operation token).1 :: (join rest (operation token).2).1,
      (join rest (operation token).2).2)

theorem Join.InOrder.map_eq_thread {β : Type} {join : Join γ} (h : join.InOrder)
    (operate : β → Token → γ × Token) (token : Token) (xs : List β) :
    join (xs.map operate) token = token.thread operate xs := by
  induction xs generalizing token with
  | nil => exact h.nil token
  | cons x rest ih => rw [List.map_cons, h.cons, ih, thread_cons]

-- The operations one after the other.
def inOrder : Join γ := fun operations token =>
  token.thread (fun operation token => operation token) operations

theorem inOrder_inOrder : Join.InOrder (γ := γ) inOrder := ⟨fun _ => rfl, fun _ _ _ => rfl⟩

end Token

-- Positions past the end of a list pick nothing from it, and nothing from what it is mapped to.
private theorem map_filterMap_getElem? {β γ : Type} (f : β → γ) (xs : List β) (picks : List Nat) :
    (picks.filterMap (xs[·]?)).map f = picks.filterMap ((xs.map f)[·]?) := by
  rw [List.map_filterMap]
  simp only [List.getElem?_map]

variable {α : Type} [Scalar α]

namespace Runner

-- A batch, with the way in which its runs are brought together left open.
def runTogether (r : Runner α) (join : Token.Join (Except AnalysisError (Output α)))
    (token : Token) (requests : List Request) :
    List (Except AnalysisError (Output α)) × Token :=
  join (requests.map r.run) token

theorem runMany_eq_thread (r : Runner α) (token : Token) (requests : List Request) :
    r.runMany token requests = token.thread r.run requests := by
  induction requests generalizing token with
  | nil => rfl
  | cons request rest ih =>
      rw [Token.thread_cons, ← ih]
      rfl

section Quiet

variable {r : Runner α} {requests : List Request}

theorem fst_runMany_of_quiet (h : ∀ request ∈ requests, r.cancels request = false)
    (token : Token) :
    (r.runMany token requests).1 = requests.map fun request => (r.run request token).1 := by
  have hkeep : ∀ request ∈ requests, (r.run request token).2 = token := by
    intro request hmem
    rw [snd_run, h request hmem]
    rfl
  rw [runMany_eq_thread, Token.thread_eq_map r.run hkeep]

-- Requests that are picked by their positions, in whatever order and however often, get the results
-- at the same positions.
theorem fst_runMany_picks (h : ∀ request ∈ requests, r.cancels request = false) (token : Token)
    (picks : List Nat) :
    (r.runMany token (picks.filterMap (requests[·]?))).1 =
      picks.filterMap ((r.runMany token requests).1[·]?) := by
  have hpicked : ∀ request ∈ picks.filterMap (requests[·]?), r.cancels request = false := by
    intro request hmem
    obtain ⟨i, -, hi⟩ := List.mem_filterMap.mp hmem
    exact h request (List.mem_of_getElem? hi)
  rw [fst_runMany_of_quiet hpicked, fst_runMany_of_quiet h, map_filterMap_getElem?]

end Quiet

-- The first fetch that cancels divides a batch. Its own request and those before it are run on the
-- token as it was, and those after it on a cancelled one.
theorem fst_runMany_of_cancel {r : Runner α} {earlier later : List Request} {request : Request}
    (hquiet : ∀ x ∈ earlier, r.cancels x = false) (hcancel : r.cancels request = true)
    (token : Token) :
    (r.runMany token (earlier ++ request :: later)).1 =
      (earlier ++ [request]).map (fun x => (r.run x token).1) ++
        later.map fun x => (r.run x token.cancel).1 := by
  have hthrough : Token.through r.run token earlier = token := by
    rw [Token.through_eq r.snd_run, List.any_eq_false.mpr fun x hx => by simp [hquiet x hx]]
    rfl
  have hafter : (r.run request token).2 = token.cancel := by
    rw [snd_run, hcancel]
    rfl
  have hkeep : ∀ x ∈ later, (r.run x token.cancel).2 = token.cancel := by
    intro x _
    rw [snd_run]
    split <;> rfl
  rw [runMany_eq_thread, Token.fst_thread_append, hthrough, Token.thread_cons, hafter,
    Token.thread_eq_map r.run hkeep, ← runMany_eq_thread, fst_runMany_of_quiet hquiet]
  simp

end Runner

-- However a batch is brought together, if it is in order: each request is run on the token as the
-- requests before it have left it, so that later ones never matter to it, and earlier ones only by
-- a cancellation.
theorem Runner.runMany_runs_in_turn {join : Token.Join (Except AnalysisError (Output α))}
    (h : join.InOrder) (r : Runner α) (token : Token) (requests : List Request) :
    r.runTogether join token requests = r.runMany token requests ∧
      (r.runMany token requests).1.length = requests.length ∧
      (∀ (i : Nat) (request : Request), requests[i]? = some request →
        (r.runMany token requests).1[i]? = some (r.run request
          ((requests.take i).foldl (fun token request => (r.run request token).2) token)).1) ∧
      ((∀ request ∈ requests, r.cancels request = false) →
        (r.runMany token requests).1 = requests.map (fun request => (r.run request token).1) ∧
          ∀ picks : List Nat, (r.runMany token (picks.filterMap (requests[·]?))).1 =
            picks.filterMap ((r.runMany token requests).1[·]?)) ∧
      (∀ n, (r.runMany token requests).1.take n = (r.runMany token (requests.take n)).1) ∧
      ∀ earlier request later, requests = earlier ++ request :: later →
        (∀ x ∈ earlier, r.cancels x = false) → r.cancels request = true →
          (r.runMany token requests).1 =
            (earlier ++ [request]).map (fun x => (r.run x token).1) ++
              later.map fun x => (r.run x token.cancel).1 := by
  refine ⟨?_, ?_, ?_, ?_, ?_, ?_⟩
  · rw [runTogether, h.map_eq_thread, runMany_eq_thread]
  · rw [runMany_eq_thread, Token.length_fst_thread]
  · intro i request hi
    rw [runMany_eq_thread, Token.getElem?_fst_thread, hi]
    rfl
  · intro hquiet
    exact ⟨fst_runMany_of_quiet hquiet token, fst_runMany_picks hquiet token⟩
  · intro n
    rw [runMany_eq_thread, runMany_eq_thread, Token.take_fst_thread]
  · rintro earlier request later rfl hquiet hcancel
    exact fst_runMany_of_cancel hquiet hcancel token

-- Every fetch of weekly candles is interrupted.
def Runner.interruptible : Runner Rat :=
  ⟨[⟨.feed ⟨"desk", fun _ => true, fun query =>
      ⟨.ok [⟨.epoch, 1, 3, 1, 2, 0⟩, ⟨.epoch, 2, 4, 2, 3, 0⟩], query.period = .weekly⟩⟩,
    .ema ⟨⟨1⟩, by decide⟩⟩]⟩

theorem Runner.runMany_runs_in_turn_interrupted :
    (Token.inOrder : Token.Join (Except AnalysisError (Output Rat))).InOrder ∧
      (Runner.interruptible.runTogether Token.inOrder .fresh [.of "BRK.B" .epoch .epoch .daily .ema,
          .of "BRK.B" .epoch .epoch .weekly .ema, .of "BRK.B" .epoch .epoch .daily .ema]).1 =
        [(Runner.interruptible.run (.of "BRK.B" .epoch .epoch .daily .ema) .fresh).1,
          .error (.cancelled Ema.stage), .error (.cancelled Ema.stage)] := by
  refine ⟨Token.inOrder_inOrder, ?_⟩
  obtain ⟨htogether, -, -, -, -, hcancel⟩ := Runner.runMany_runs_in_turn Token.inOrder_inOrder
    Runner.interruptible .fresh [.of "BRK.B" .epoch .epoch .daily .ema,
      .of "BRK.B" .epoch .epoch .weekly .ema, .of "BRK.B" .epoch .epoch .daily .ema]
  have hresults := hcancel [.of "BRK.B" .epoch .epoch .daily .ema]
    (.of "BRK.B" .epoch .epoch .weekly .ema) [.of "BRK.B" .epoch .epoch .daily .ema] rfl
    (by decide) (by decide)
  rw [htogether, hresults]
  rfl

end Candlestick
