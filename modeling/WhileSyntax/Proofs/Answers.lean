import WhileSyntax.Proofs.Calls
namespace WhileSyntax

/-! # The answers of a builder

Builders that number their handles give the same answers to the same calls, whatever else they do
with them (`Builder.answers_congr`). So calls are scoped just when each node that they name is the
answer to an earlier one (`Builder.namesAnswers_iff_scoped`).
-/

/-! ## Handles that are issued -/

theorem Call.le_issued (n : Nat) (c : Call) : n ≤ c.issued n := by
  unfold issued
  split
  · exact Nat.le_succ n
  · exact Nat.le_refl n

theorem le_issuedBy (n : Nat) (cs : List Call) : n ≤ issuedBy n cs := by
  induction cs generalizing n with
  | nil => exact Nat.le_refl n
  | cons c cs ih => exact Nat.le_trans (c.le_issued n) (ih (c.issued n))

/-- Calls are scoped just when each of them names a handle that was issued before it. -/
theorem scoped_iff {n : Nat} {cs : List Call} :
    Scoped n cs ↔ ∀ before c after, cs = before ++ c :: after →
      ∀ h, c.target? = some h → h.index < issuedBy n before := by
  constructor
  · rintro hcs before c after rfl h ht
    exact (scoped_append.1 hcs).2.1 h ht
  · intro h
    -- the first call has nothing before it; for the others the first joins what is before
    induction cs generalizing n with
    | nil => trivial
    | cons c cs ih =>
      refine ⟨h [] c cs rfl, ih ?_⟩
      rintro before d after rfl t ht
      exact h (c :: before) d after rfl t ht

namespace Builder

variable {β γ : Type} [Builder β] [Builder γ]

/-- The answers of a builder to calls, one for each call: a handle, or nothing. -/
def answers (b : β) : List Call → List (Option Handle)
  | [] => []
  | c :: cs => answer? b c :: answers (apply b c).1 cs

/-- Each node that a call names is the answer to an earlier call. -/
def NamesAnswers (b : β) (cs : List Call) : Prop :=
  ∀ before c after, cs = before ++ c :: after →
    ∀ h, c.target? = some h → some h ∈ answers b before

variable {b : β} {n : Nat}

theorem answers_cons (hb : next b = ⟨n⟩) (c : Call) (cs : List Call) :
    answers b (c :: cs) =
      (if c.issues then some ⟨n⟩ else none) :: answers (apply b c).1 cs := by
  rw [answers, answer?, hb]

variable [Lawful β] [Lawful γ]

theorem next_apply (hb : next b = ⟨n⟩) (c : Call) : next (apply b c).1 = ⟨c.issued n⟩ := by
  rw [Lawful.next_apply, hb, Call.issued]
  split <;> rfl

theorem next_told (hb : next b = ⟨n⟩) (cs : List Call) : next (told b cs) = ⟨issuedBy n cs⟩ := by
  induction cs generalizing b n with
  | nil => exact hb
  | cons c cs ih => exact ih (next_apply hb c)

/-- After the same calls, builders that issued the same handle next do so again. -/
theorem next_told_congr {b' : γ} (hnext : next b = next b') (cs : List Call) :
    next (told b cs) = next (told b' cs) := by
  rw [next_told (n := (next b').index) hnext, next_told (n := (next b').index) rfl]

/-- Two builders that have issued equally many handles give the same answers. -/
theorem answers_congr {b' : γ} (hb : next b = ⟨n⟩) (hb' : next b' = ⟨n⟩) (cs : List Call) :
    answers b cs = answers b' cs := by
  induction cs generalizing b b' n with
  | nil => rfl
  | cons c cs ih =>
    rw [answers_cons hb, answers_cons hb', ih (next_apply hb c) (next_apply hb' c)]

/-- The answers are the handles that are issued meanwhile. -/
theorem mem_answers_iff (hb : next b = ⟨n⟩) {cs : List Call} {h : Handle} :
    some h ∈ answers b cs ↔ n ≤ h.index ∧ h.index < issuedBy n cs := by
  induction cs generalizing b n with
  | nil =>
    have hempty : ¬ (n ≤ h.index ∧ h.index < n) := by omega
    simp [answers, issuedBy, hempty]
  | cons c cs ih =>
    have hlow := le_issuedBy (c.issued n) cs
    rw [answers_cons hb, List.mem_cons, ih (next_apply hb c)]
    show _ ↔ n ≤ h.index ∧ h.index < issuedBy (c.issued n) cs
    cases hc : c.issues with
    | false => simp [Call.issued, hc]
    | true =>
      -- the new handle has the number `n`, and those of later calls are greater
      have hh : h = ⟨n⟩ ↔ h.index = n := by
        cases h
        simp
      simp only [Call.issued, hc, if_true, Option.some.injEq, hh] at hlow ⊢
      omega

/-- The handles among the answers are numbered in order. -/
theorem handles_answers (hb : next b = ⟨n⟩) (cs : List Call) :
    (answers b cs).filterMap id = (List.range' n (issuedBy n cs - n)).map Handle.mk := by
  induction cs generalizing b n with
  | nil => simp [answers, issuedBy]
  | cons c cs ih =>
    have hlow := le_issuedBy (c.issued n) cs
    rw [answers_cons hb]
    show _ = (List.range' n (issuedBy (c.issued n) cs - n)).map Handle.mk
    cases hc : c.issues with
    | false =>
      have hissued : c.issued n = n := by simp [Call.issued, hc]
      rw [if_neg Bool.false_ne_true, List.filterMap_cons_none rfl, ih (next_apply hb c), hissued]
    | true =>
      -- the first number of the range is that of this call
      have hissued : c.issued n = n + 1 := by simp [Call.issued, hc]
      rw [hissued] at hlow
      have hcount : issuedBy (n + 1) cs - n = issuedBy (n + 1) cs - (n + 1) + 1 := by omega
      have hsome : id (some (⟨n⟩ : Handle)) = some ⟨n⟩ := rfl
      rw [if_pos rfl, List.filterMap_cons_some hsome, ih (next_apply hb c), hissued, hcount,
        List.range'_succ, List.map_cons]

/-- To name answers is to be in scope, for a builder that has issued nothing. -/
theorem namesAnswers_iff_scoped (hb : next b = ⟨0⟩) {cs : List Call} :
    NamesAnswers b cs ↔ Scoped 0 cs := by
  simp only [NamesAnswers, scoped_iff, mem_answers_iff hb, Nat.zero_le, true_and]

end Builder

end WhileSyntax
