import Candlestick.Token.Pool
import Mathlib.Data.List.Induction
import Mathlib.Logic.Relation

namespace Candlestick.Token.Pool

-- What a step makes of a pool. A step on a token that is not there does nothing.
inductive Effect (p : Pool) : Step → Pool → Prop where
  | create : Effect p .create ⟨p.families ++ [fresh], p.members ++ [p.families.length]⟩
  | clone {token family : Nat} (h : p.members[token]? = some family) :
      Effect p (.clone token) ⟨p.families, p.members ++ [family]⟩
  | cancel {token family : Nat} (h : p.members[token]? = some family) :
      Effect p (.cancel token) ⟨p.families.modify family Token.cancel, p.members⟩
  | idle {s : Step} (clone : ∀ token, s = .clone token → p.size ≤ token)
      (cancel : ∀ token, s = .cancel token → p.size ≤ token) : Effect p s p

theorem effect_step (p : Pool) (s : Step) : Effect p s (p.step s) := by
  cases s with
  | create => exact .create
  | clone token =>
      cases h : p.members[token]? with
      | none =>
          have hstep : p.step (.clone token) = p := by simp [step, Pool.clone, h]
          rw [hstep]
          refine .idle ?_ (by simp)
          rintro _ ⟨⟩
          exact List.getElem?_eq_none_iff.mp h
      | some family =>
          have hstep : p.step (.clone token) = ⟨p.families, p.members ++ [family]⟩ := by
            simp [step, Pool.clone, h]
          exact hstep ▸ .clone h
  | cancel token =>
      cases h : p.members[token]? with
      | none =>
          have hstep : p.step (.cancel token) = p := by simp [step, Pool.cancel, h]
          rw [hstep]
          refine .idle (by simp) ?_
          rintro _ ⟨⟩
          exact List.getElem?_eq_none_iff.mp h
      | some family =>
          have hstep : p.step (.cancel token) =
              ⟨p.families.modify family Token.cancel, p.members⟩ := by
            simp [step, Pool.cancel, h]
          exact hstep ▸ .cancel h
  | check token stage => exact .idle (by simp) (by simp)
  | isCancelled token => exact .idle (by simp) (by simp)

private theorem getElem?_concat_eq_some_iff {xs : List Nat} {x i n : Nat} :
    (xs ++ [x])[i]? = some n ↔ xs[i]? = some n ∨ (i = xs.length ∧ x = n) := by
  grind

theorem run_concat (steps : List Step) (s : Step) : run (steps ++ [s]) = (run steps).step s :=
  List.foldl_append

-- A step was taken in a pool.
def Took (steps : List Step) (s : Step) (before : Pool) : Prop :=
  ∃ done rest, steps = done ++ s :: rest ∧ before = run done

-- A token was cloned, and the copy is this token.
def Clones (steps : List Step) (token copy : Nat) : Prop :=
  ∃ before, Took steps (.clone token) before ∧ token < before.size ∧ copy = before.size

def Cancels (steps : List Step) (token : Nat) : Prop :=
  ∃ before, Took steps (.cancel token) before ∧ token < before.size

-- A chain of clone steps leads from one token to the other, each step in either direction.
def Linked (steps : List Step) : Nat → Nat → Prop := Relation.EqvGen (Clones steps)

section

variable {steps : List Step} {last s : Step} {before : Pool} {token other copy family : Nat}

theorem took_concat :
    Took (steps ++ [last]) s before ↔ Took steps s before ∨ (s = last ∧ before = run steps) := by
  constructor
  · rintro ⟨done, rest, h, hbefore⟩
    rcases List.eq_nil_or_concat rest with rfl | ⟨rest, t, rfl⟩
    · obtain ⟨rfl, hs⟩ := List.append_inj' h rfl
      exact .inr ⟨(List.cons.inj hs).1.symm, hbefore⟩
    · rw [List.concat_eq_append, ← List.cons_append, ← List.append_assoc] at h
      exact .inl ⟨done, rest, (List.append_inj' h rfl).1, hbefore⟩
  · rintro (⟨done, rest, rfl, hbefore⟩ | ⟨rfl, hbefore⟩)
    · exact ⟨done, rest ++ [last], by simp, hbefore⟩
    · exact ⟨steps, [], rfl, hbefore⟩

theorem clones_concat :
    Clones (steps ++ [last]) token copy ↔ Clones steps token copy ∨
      (last = .clone token ∧ token < (run steps).size ∧ copy = (run steps).size) := by
  simp only [Clones, took_concat, or_and_right, exists_or]
  refine or_congr_right ?_
  constructor
  · rintro ⟨_, ⟨rfl, rfl⟩, h⟩
    exact ⟨rfl, h⟩
  · rintro ⟨rfl, h⟩
    exact ⟨_, ⟨rfl, rfl⟩, h⟩

theorem cancels_concat :
    Cancels (steps ++ [last]) token ↔
      Cancels steps token ∨ (last = .cancel token ∧ token < (run steps).size) := by
  simp only [Cancels, took_concat, or_and_right, exists_or]
  refine or_congr_right ?_
  constructor
  · rintro ⟨_, ⟨rfl, rfl⟩, h⟩
    exact ⟨rfl, h⟩
  · rintro ⟨rfl, h⟩
    exact ⟨_, ⟨rfl, rfl⟩, h⟩

theorem Linked.concat (h : Linked steps token other) (last : Step) :
    Linked (steps ++ [last]) token other :=
  Relation.EqvGen.mono (fun _ _ hc => clones_concat.mpr (.inl hc)) _ _ h

end

-- The families of a pool as they come out of the steps that were taken.
structure Traced (steps : List Step) (p : Pool) : Prop where
  lt {token family : Nat} (h : p.members[token]? = some family) : family < p.families.length
  clones {token copy : Nat} (h : Clones steps token copy) :
    ∃ family, p.members[token]? = some family ∧ p.members[copy]? = some family
  linked {token other family : Nat} (htoken : p.members[token]? = some family)
    (hother : p.members[other]? = some family) : Linked steps token other
  cancels {token : Nat} (h : Cancels steps token) : ∃ family, p.members[token]? = some family
  cancelled {family : Nat} (h : family < p.families.length) :
    p.families[family]?.any Token.cancelled = true ↔
      ∃ token, Cancels steps token ∧ p.members[token]? = some family

section

variable {steps : List Step} {s : Step} {p q : Pool} {token other copy family : Nat}

-- A token stays in its family.
theorem Effect.members (e : Effect p s q) (h : p.members[token]? = some family) :
    q.members[token]? = some family := by
  cases e with
  | create => exact getElem?_concat_eq_some_iff.mpr (.inl h)
  | clone _ => exact getElem?_concat_eq_some_iff.mpr (.inl h)
  | cancel _ => exact h
  | idle _ _ => exact h

theorem Traced.concat_lt (t : Traced steps p) (e : Effect p s q)
    (h : q.members[token]? = some family) : family < q.families.length := by
  cases e with
  | create =>
      rw [List.length_append]
      rcases getElem?_concat_eq_some_iff.mp h with h | ⟨-, rfl⟩
      · exact Nat.lt_succ_of_lt (t.lt h)
      · exact Nat.lt_succ_self _
  | clone hc =>
      rcases getElem?_concat_eq_some_iff.mp h with h | ⟨-, rfl⟩
      · exact t.lt h
      · exact t.lt hc
  | cancel _ =>
      rw [List.length_modify]
      exact t.lt h
  | idle _ _ => exact t.lt h

theorem Traced.concat_clones (t : Traced steps (run steps)) (e : Effect (run steps) s q)
    (h : Clones (steps ++ [s]) token copy) :
    ∃ family, q.members[token]? = some family ∧ q.members[copy]? = some family := by
  rcases clones_concat.mp h with h | ⟨rfl, htoken, rfl⟩
  · obtain ⟨family, hfamily, hcopy⟩ := t.clones h
    exact ⟨family, e.members hfamily, e.members hcopy⟩
  · cases e with
    | clone hc => exact ⟨_, getElem?_concat_eq_some_iff.mpr (.inl hc),
        getElem?_concat_eq_some_iff.mpr (.inr ⟨rfl, rfl⟩)⟩
    | idle clone _ => exact absurd (clone _ rfl) (Nat.not_le.mpr htoken)

-- A token is linked to one of its family that was there before the step, unless it is the first.
theorem Traced.concat_linked (t : Traced steps (run steps)) (e : Effect (run steps) s q)
    (htoken : q.members[token]? = some family) (hother : q.members[other]? = some family) :
    Linked (steps ++ [s]) token other := by
  cases e with
  | create =>
      have hold {i : Nat} (h : (run steps).members[i]? = some (run steps).families.length) :
          False := absurd (t.lt h) (Nat.lt_irrefl _)
      rcases getElem?_concat_eq_some_iff.mp htoken with htoken | ⟨rfl, rfl⟩ <;>
        rcases getElem?_concat_eq_some_iff.mp hother with hother | ⟨rfl, hf⟩
      · exact (t.linked htoken hother).concat _
      · exact (hold (hf ▸ htoken)).elim
      · exact (hold hother).elim
      · exact .refl _
  | @clone source family' hc =>
      have hcopy : Linked (steps ++ [.clone source]) source (run steps).size :=
        .rel _ _ (clones_concat.mpr (.inr ⟨rfl, (List.getElem?_eq_some_iff.mp hc).1, rfl⟩))
      have hlinked {i j : Nat} (hi : (run steps).members[i]? = some family)
          (hj : (run steps).members[j]? = some family) :
          Linked (steps ++ [.clone source]) i j := (t.linked hi hj).concat _
      rcases getElem?_concat_eq_some_iff.mp htoken with htoken | ⟨rfl, rfl⟩ <;>
        rcases getElem?_concat_eq_some_iff.mp hother with hother | ⟨rfl, hf⟩
      · exact hlinked htoken hother
      · exact (hlinked htoken (hf ▸ hc)).trans _ _ _ hcopy
      · exact (hcopy.symm _ _).trans _ _ _ (hlinked hc hother)
      · exact .refl _
  | cancel _ => exact (t.linked htoken hother).concat _
  | idle _ _ => exact (t.linked htoken hother).concat _

theorem Traced.concat_cancels (t : Traced steps (run steps)) (e : Effect (run steps) s q)
    (h : Cancels (steps ++ [s]) token) : ∃ family, q.members[token]? = some family := by
  rcases cancels_concat.mp h with h | ⟨rfl, htoken⟩
  · obtain ⟨family, hfamily⟩ := t.cancels h
    exact ⟨family, e.members hfamily⟩
  · exact ⟨_, e.members (List.getElem?_eq_getElem htoken)⟩

-- A family is cancelled if it was, or if the step cancels it.
theorem Traced.exists_cancels_concat (t : Traced steps (run steps)) (e : Effect (run steps) s q) :
    (∃ token, Cancels (steps ++ [s]) token ∧ q.members[token]? = some family) ↔
      (∃ token, Cancels steps token ∧ (run steps).members[token]? = some family) ∨
        ∃ token, s = .cancel token ∧ (run steps).members[token]? = some family := by
  constructor
  · rintro ⟨token, hcancels, hq⟩
    obtain ⟨other, hp⟩ : ∃ other, (run steps).members[token]? = some other := by
      rcases cancels_concat.mp hcancels with h | ⟨-, h⟩
      · exact t.cancels h
      · exact ⟨_, List.getElem?_eq_getElem h⟩
    obtain rfl := Option.some.inj ((e.members hp).symm.trans hq)
    rcases cancels_concat.mp hcancels with h | ⟨rfl, -⟩
    · exact .inl ⟨token, h, hp⟩
    · exact .inr ⟨token, rfl, hp⟩
  · rintro (⟨token, h, hp⟩ | ⟨token, rfl, hp⟩)
    · exact ⟨token, cancels_concat.mpr (.inl h), e.members hp⟩
    · have hlt := (List.getElem?_eq_some_iff.mp hp).1
      exact ⟨token, cancels_concat.mpr (.inr ⟨rfl, hlt⟩), e.members hp⟩

theorem Traced.concat_cancelled (t : Traced steps (run steps)) (e : Effect (run steps) s q)
    (h : family < q.families.length) :
    q.families[family]?.any Token.cancelled = true ↔
      ∃ token, Cancels (steps ++ [s]) token ∧ q.members[token]? = some family := by
  rw [t.exists_cancels_concat e]
  cases e with
  | create =>
      rcases Nat.lt_or_ge family (run steps).families.length with hlt | hge
      · simpa [List.getElem?_append_left hlt] using t.cancelled hlt
      · have hnone (token : Nat) : (run steps).members[token]? ≠ some family :=
          fun hf => absurd (t.lt hf) (Nat.not_lt.mpr hge)
        obtain rfl : family = (run steps).families.length := by
          rw [List.length_append, List.length_singleton] at h
          omega
        simp [hnone, fresh]
  | clone _ => simpa using t.cancelled h
  | @cancel token other hp =>
      rw [List.length_modify] at h
      by_cases hother : other = family
      · subst hother
        simp [List.getElem?_eq_getElem h, Token.cancel, hp]
      · simpa [List.getElem?_modify, hother, hp] using t.cancelled h
  | idle _ cancel =>
      have hnone (token : Nat) : ¬(s = .cancel token ∧ (run steps).members[token]? = some family) :=
        fun ⟨hs, hp⟩ =>
          absurd (List.getElem?_eq_some_iff.mp hp).1 (Nat.not_lt.mpr (cancel token hs))
      simpa [hnone] using t.cancelled h

end

theorem traced_run (steps : List Step) : Traced steps (run steps) := by
  induction steps using List.reverseRecOn with
  | nil =>
      have hnone {s : Step} {before : Pool} : ¬Took [] s before := by simp [Took]
      constructor <;> simp [run, empty, Clones, Cancels, hnone]
  | append_singleton steps s t =>
      have e := effect_step (run steps) s
      rw [run_concat]
      exact ⟨t.concat_lt e, t.concat_clones e, t.concat_linked e, t.concat_cancels e,
        t.concat_cancelled e⟩

section

variable {steps : List Step} {p : Pool} {token other family : Nat}

theorem Traced.members_eq_of_linked (t : Traced steps p) (h : Linked steps token other) :
    p.members[token]? = p.members[other]? := by
  induction h with
  | rel token copy h =>
      obtain ⟨family, htoken, hcopy⟩ := t.clones h
      rw [htoken, hcopy]
  | refl token => rfl
  | symm token other _ ih => exact ih.symm
  | trans first second third _ _ ih ih' => exact ih.trans ih'

theorem linked_iff (htoken : token < (run steps).size) :
    Linked steps token other ↔ (run steps).members[token]? = (run steps).members[other]? := by
  have hfamily := List.getElem?_eq_getElem htoken
  exact ⟨(traced_run steps).members_eq_of_linked,
    fun h => (traced_run steps).linked hfamily (h ▸ hfamily)⟩

theorem isCancelled_eq (h : p.members[token]? = some family) :
    p.isCancelled token = p.families[family]?.any Token.cancelled := by
  simp [isCancelled, get?, h]

theorem isCancelled_run_iff (h : token < (run steps).size) :
    (run steps).isCancelled token = true ↔
      ∃ other, Linked steps token other ∧ Cancels steps other := by
  have t := traced_run steps
  have hfamily := List.getElem?_eq_getElem h
  rw [isCancelled_eq hfamily, t.cancelled (t.lt hfamily)]
  refine exists_congr fun other => ?_
  rw [linked_iff h, hfamily, and_comm, eq_comm]

theorem check_eq (p : Pool) (token : Nat) (stage : String) :
    p.check token stage = if p.isCancelled token then .error (.cancelled stage) else .ok () := by
  rw [check, isCancelled]
  cases p.get? token with
  | none => rfl
  | some t => rfl

-- What one more step does to a token that is there.
theorem isCancelled_run_concat_iff {last : Step} (h : token < (run steps).size) :
    (run (steps ++ [last])).isCancelled token = true ↔ (run steps).isCancelled token = true ∨
      ∃ other, last = .cancel other ∧ Linked steps token other := by
  have t := traced_run steps
  have e := effect_step (run steps) last
  have hfamily := List.getElem?_eq_getElem h
  have hnew := e.members hfamily
  rw [run_concat, isCancelled_eq hnew, isCancelled_eq hfamily, t.cancelled (t.lt hfamily),
    t.concat_cancelled e (t.concat_lt e hnew), t.exists_cancels_concat e]
  refine or_congr_right (exists_congr fun other => and_congr_right fun _ => ?_)
  rw [linked_iff h, hfamily, eq_comm]

end

theorem size_run_create (steps : List Step) :
    (run (steps ++ [.create])).size = (run steps).size + 1 := by
  simp [run_concat, step, create, size]

theorem size_run_clone {steps : List Step} {token : Nat} (h : token < (run steps).size) :
    (run (steps ++ [.clone token])).size = (run steps).size + 1 := by
  simp [run_concat, step, clone, size, List.getElem?_eq_getElem h]

-- At any moment of any history, a token is cancelled exactly if some token of its family has been;
-- the families are those that clone steps link. A check fails for the tokens that are cancelled. A
-- step neither takes a cancellation back nor changes a token of another family than its own.
theorem clones_share_cancellation (steps : List Step) :
    ((run (steps ++ [.create])).size = (run steps).size + 1 ∧
      ∀ token < (run steps).size, (run (steps ++ [.clone token])).size = (run steps).size + 1) ∧
    (∀ token < (run steps).size, (run steps).isCancelled token = true ↔
      ∃ other, Linked steps token other ∧ Cancels steps other) ∧
    (∀ token < (run steps).size, ∀ other,
      Linked steps token other ↔ (run steps).members[token]? = (run steps).members[other]?) ∧
    (∀ token, (run steps).reply (.isCancelled token) = .state ((run steps).isCancelled token) ∧
      ∀ stage, (run steps).reply (.check token stage) =
        .checked (if (run steps).isCancelled token then .error (.cancelled stage) else .ok ())) ∧
    ∀ last : Step, ∀ token < (run steps).size,
      ((run steps).isCancelled token = true → (run (steps ++ [last])).isCancelled token = true) ∧
      ((∀ other, last = .cancel other → ¬Linked steps token other) →
        (run (steps ++ [last])).isCancelled token = (run steps).isCancelled token) := by
  refine ⟨⟨size_run_create steps, fun token => size_run_clone⟩,
    fun token => isCancelled_run_iff, fun token h other => linked_iff h, ?_, ?_⟩
  · intro token
    refine ⟨rfl, fun stage => ?_⟩
    rw [reply, check_eq]
  · intro last token h
    refine ⟨fun hc => (isCancelled_run_concat_iff h).mpr (.inl hc), fun hlast => ?_⟩
    rw [Bool.eq_iff_iff, isCancelled_run_concat_iff h]
    refine or_iff_left ?_
    rintro ⟨other, hcancel, hlinked⟩
    exact hlast other hcancel hlinked

-- A clone of a clone, made before its kin is cancelled, and a token of another family.
theorem clones_share_cancellation_kin :
    (∃ other, Linked [.create, .clone 0, .clone 1, .create, .cancel 0] 2 other ∧
      Cancels [.create, .clone 0, .clone 1, .create, .cancel 0] other) ∧
    (run [.create, .clone 0, .clone 1, .create, .cancel 0, .clone 3]).isCancelled 2 = true ∧
    (run [.create, .clone 0, .clone 1, .create, .cancel 0, .cancel 2]).isCancelled 3 = false := by
  obtain ⟨-, hiff, hlinked, -, hstep⟩ :=
    clones_share_cancellation [.create, .clone 0, .clone 1, .create, .cancel 0]
  refine ⟨(hiff 2 (by decide)).mp (by decide), ?_, ?_⟩
  · exact (hstep (.clone 3) 2 (by decide)).1 (by decide)
  · refine ((hstep (.cancel 2) 3 (by decide)).2 ?_).trans (by decide)
    rintro _ ⟨⟩ h
    exact absurd ((hlinked 3 (by decide) 2).mp h) (by decide)

end Candlestick.Token.Pool
