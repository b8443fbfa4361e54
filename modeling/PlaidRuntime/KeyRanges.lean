import Mathlib

/-! A listing handed out in ranges of its keys: each range starts after the end of the one
before, and the last one has no end. -/
namespace PlaidRuntime.KeyRanges

variable {α κ : Type} [LinearOrder κ] (key : α → κ)

def after (start : Option κ) (k : κ) : Bool :=
  match start with
  | none => true
  | some s => decide (s < k)

def upTo (stop : Option κ) (k : κ) : Bool :=
  match stop with
  | none => true
  | some s => decide (k ≤ s)

/-- The elements with a key after `start` and up to `stop`. -/
def range (start stop : Option κ) (l : List α) : List α :=
  l.filter fun a => after start (key a) && upTo stop (key a)

/-- All ranges one after the other. -/
def ranges (l : List α) : Option κ → List κ → List α
  | start, [] => range key start none l
  | start, cut :: cuts => range key start (some cut) l ++ ranges l (some cut) cuts

theorem range_none (start : Option κ) (l : List α) :
    range key start none l = l.filter fun a => after start (key a) := by
  simp [range, upTo]

/-- A cut splits what is left in two. -/
theorem range_append_range {start : Option κ} {cut : κ} (h : after start cut = true)
    (l : List α) :
    (range key start (some cut) l ++ range key (some cut) none l).Perm
      (range key start none l) := by
  have hsplit := List.filter_append_perm (fun a => upTo (some cut) (key a))
    (range key start none l)
  have hfirst : (range key start none l).filter (fun a => upTo (some cut) (key a)) =
      range key start (some cut) l := by
    rw [range_none, range, List.filter_filter]
    exact List.filter_congr fun a _ => Bool.and_comm _ _
  have hrest : (range key start none l).filter (fun a => !upTo (some cut) (key a)) =
      range key (some cut) none l := by
    simp only [range_none, List.filter_filter]
    apply List.filter_congr
    intro a _
    cases start with
    | none => simp [after, upTo, ← decide_not]
    | some s =>
      have hs : s < cut := of_decide_eq_true h
      by_cases hc : cut < key a
      · simp [after, upTo, hc, not_le.mpr hc, hs.trans hc]
      · simp [after, upTo, hc, not_lt.mp hc]
  rwa [hfirst, hrest] at hsplit

/-- Increasing cuts lose nothing and repeat nothing. -/
theorem ranges_perm {cuts : List κ} (hcuts : cuts.Pairwise (· < ·)) (l : List α)
    {start : Option κ} (hstart : ∀ c ∈ cuts, after start c = true) :
    (ranges key l start cuts).Perm (range key start none l) := by
  induction cuts generalizing start with
  | nil => exact .refl _
  | cons cut cuts ih =>
    obtain ⟨hlt, hcuts⟩ := List.pairwise_cons.mp hcuts
    have hlater : ∀ c ∈ cuts, after (some cut) c = true := fun c hc => decide_eq_true (hlt c hc)
    have hrest := ih hcuts hlater
    exact (hrest.append_left _).trans
      (range_append_range key (hstart cut List.mem_cons_self) l)

end PlaidRuntime.KeyRanges
