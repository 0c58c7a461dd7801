import Mathlib.Data.List.Basic
import Mathlib.Tactic.Common

/-!
# Loops driven by the results of a call

A `Loop` is a `while` loop whose body makes one call and branches on its result, ending in
another pass or leaving the loop. It runs against the list of results its calls get: `run`
gives the final state and the unread results, or `none` while the loop waits for the result
of another call. The rules carry an invariant that relates the state at the loop's head to
the results read so far.
-/

namespace CallLoop

/-- How a pass through the body ends. -/
inductive Pass (σ : Type) : Type
  | again (s : σ)
  | leave (s : σ)

/-- A loop over states `σ` that makes calls `κ` with results `ρ`. -/
structure Loop (σ κ ρ : Type) where
  guard : σ → Bool
  call : σ → κ
  body : σ → ρ → Pass σ

namespace Loop

variable {σ κ ρ : Type} (L : Loop σ κ ρ)

/-- The state after the loop and the results it left unread. -/
def run : σ → List ρ → Option (σ × List ρ)
  | s, [] => if L.guard s then none else some (s, [])
  | s, r :: rs =>
    if L.guard s then
      match L.body s r with
      | .again t => run t rs
      | .leave t => some (t, rs)
    else some (s, r :: rs)

def heads : σ → List ρ → List σ
  | s, [] => [s]
  | s, r :: rs =>
    s :: if L.guard s then
      match L.body s r with
      | .again t => heads t rs
      | .leave _ => []
    else []

def calls (s : σ) (rs : List ρ) : List κ := ((L.heads s rs).filter L.guard).map L.call

/-- Every result read is an answer, in the sense of `ok`, to the call that gets it. -/
def Answered (ok : κ → ρ → Prop) : σ → List ρ → Prop
  | _, [] => True
  | s, r :: rs =>
    L.guard s = true → ok (L.call s) r ∧
      match L.body s r with
      | .again t => Answered ok t rs
      | .leave _ => True

/-- The passes through the body that go on keep the invariant `I` between the results read
and the state at the head. -/
def Keeps (ok : κ → ρ → Prop) (I : List ρ → σ → Prop) : Prop :=
  ∀ used s r t, I used s → L.guard s = true → ok (L.call s) r → L.body s r = .again t →
    I (used ++ [r]) t

variable {L} {ok : κ → ρ → Prop} {I : List ρ → σ → Prop}

/-- The loop has been left: at its head, or from inside the body on the last result read. -/
inductive Left (L : Loop σ κ ρ) (ok : κ → ρ → Prop) (I : List ρ → σ → Prop) (used : List ρ) (t : σ) : Prop
  | head (hI : I used t) (hg : L.guard t = false)
  | inside (before : List ρ) (s : σ) (r : ρ) (hused : used = before ++ [r]) (hI : I before s)
      (hg : L.guard s = true) (hok : ok (L.call s) r) (hb : L.body s r = .leave t)

theorem Keeps.heads (hK : L.Keeps ok I) {used rs : List ρ} {s : σ} (hI : I used s)
    (hA : L.Answered ok s rs) : ∀ t ∈ L.heads s rs, ∃ seen, I seen t := by
  induction rs generalizing used s with
  | nil =>
    intro t ht
    obtain rfl : t = s := by simpa [Loop.heads] using ht
    exact ⟨used, hI⟩
  | cons r rs ih =>
    intro t ht
    rw [Loop.heads, List.mem_cons] at ht
    rcases ht with rfl | ht
    · exact ⟨used, hI⟩
    · by_cases hg : L.guard s = true
      · obtain ⟨hok, hrest⟩ := hA hg
        rw [if_pos hg] at ht
        cases hb : L.body s r with
        | again u =>
          rw [hb] at ht hrest
          exact ih (hK used s r u hI hg hok hb) hrest t ht
        | leave u => simp [hb] at ht
      · simp [hg] at ht

/-- How a loop that has come to its end left, and what it had read. -/
theorem Keeps.run_some (hK : L.Keeps ok I) {used rs rest : List ρ} {s t : σ} (hI : I used s)
    (hA : L.Answered ok s rs) (h : L.run s rs = some (t, rest)) :
    ∃ more, rs = more ++ rest ∧ Left L ok I (used ++ more) t := by
  induction rs generalizing used s with
  | nil =>
    by_cases hg : L.guard s = true
    · simp [Loop.run, hg] at h
    · obtain ⟨rfl, rfl⟩ : s = t ∧ [] = rest := by simpa [Loop.run, hg] using h
      exact ⟨[], rfl, .head (by simpa using hI) (by simpa using hg)⟩
  | cons r rs ih =>
    by_cases hg : L.guard s = true
    · obtain ⟨hok, hrest⟩ := hA hg
      rw [Loop.run, if_pos hg] at h
      cases hb : L.body s r with
      | again u =>
        rw [hb] at h hrest
        obtain ⟨more, rfl, hleft⟩ := ih (hK used s r u hI hg hok hb) hrest h
        refine ⟨r :: more, rfl, ?_⟩
        simpa using hleft
      | leave u =>
        rw [hb] at h
        obtain ⟨rfl, rfl⟩ : u = t ∧ rs = rest := by simpa using h
        exact ⟨[r], rfl, .inside used s r rfl hI hg hok hb⟩
    · obtain ⟨rfl, rfl⟩ : s = t ∧ r :: rs = rest := by simpa [Loop.run, hg] using h
      exact ⟨[], rfl, .head (by simpa using hI) (by simpa using hg)⟩

/-- A loop that still waits has read every result and is about to make another call. -/
theorem Keeps.run_none (hK : L.Keeps ok I) {used rs : List ρ} {s : σ} (hI : I used s)
    (hA : L.Answered ok s rs) (h : L.run s rs = none) :
    ∃ t, I (used ++ rs) t ∧ L.guard t = true := by
  induction rs generalizing used s with
  | nil =>
    refine ⟨s, by simpa using hI, ?_⟩
    simpa [Loop.run] using h
  | cons r rs ih =>
    by_cases hg : L.guard s = true
    · obtain ⟨hok, hrest⟩ := hA hg
      rw [Loop.run, if_pos hg] at h
      cases hb : L.body s r with
      | again u =>
        rw [hb] at h hrest
        obtain ⟨t, hIt, hgt⟩ := ih (hK used s r u hI hg hok hb) hrest h
        exact ⟨t, by simpa using hIt, hgt⟩
      | leave u => simp [hb] at h
    · simp [Loop.run, hg] at h

end Loop

end CallLoop
