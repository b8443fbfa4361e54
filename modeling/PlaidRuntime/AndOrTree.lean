import Mathlib

/-!
# Trees of AND and OR

Trees of any width over atomic conditions, their value in a bounded lattice, and a parser for
infix text in which AND binds tighter than OR. A tree that is written with parentheses around
every inner node is read back with the value it had.
-/
namespace PlaidRuntime.AndOrTree

inductive AndOr (α : Type)
  | leaf (a : α)
  | all (children : List (AndOr α))
  | any (children : List (AndOr α))

variable {α β : Type}

@[elab_as_elim, induction_eliminator]
theorem AndOr.induct {P : AndOr α → Prop} (leaf : ∀ a, P (.leaf a))
    (all : ∀ ts, (∀ t ∈ ts, P t) → P (.all ts)) (any : ∀ ts, (∀ t ∈ ts, P t) → P (.any ts))
    (t : AndOr α) : P t :=
  @AndOr.rec α P (fun ts => ∀ t ∈ ts, P t) leaf all any (fun _ h => absurd h List.not_mem_nil)
    (fun _ _ ht hts _ h => (List.mem_cons.mp h).elim (fun he => he ▸ ht) (hts _)) t

section fold
variable (leaf : α → β) (all any : List β → β)

mutual

def AndOr.fold : AndOr α → β
  | .leaf a => leaf a
  | .all ts => all (foldChildren ts)
  | .any ts => any (foldChildren ts)

def foldChildren : List (AndOr α) → List β
  | [] => []
  | t :: ts => t.fold :: foldChildren ts

end

theorem foldChildren_eq (ts : List (AndOr α)) :
    foldChildren leaf all any ts = ts.map (AndOr.fold leaf all any) := by
  induction ts with
  | nil => rfl
  | cons t ts ih => rw [foldChildren, ih, List.map_cons]

theorem AndOr.fold_all (ts : List (AndOr α)) :
    AndOr.fold leaf all any (.all ts) = all (ts.map (AndOr.fold leaf all any)) := by
  rw [AndOr.fold, foldChildren_eq]

theorem AndOr.fold_any (ts : List (AndOr α)) :
    AndOr.fold leaf all any (.any ts) = any (ts.map (AndOr.fold leaf all any)) := by
  rw [AndOr.fold, foldChildren_eq]

end fold

/-- The atomic conditions from left to right. -/
def AndOr.leaves : AndOr α → List α := AndOr.fold (fun a => [a]) List.flatten List.flatten

/-- How many inner nodes lie on the longest way down. -/
def AndOr.nesting : AndOr α → ℕ :=
  AndOr.fold (fun _ => 0) (fun ns => ns.foldr max 0 + 1) fun ns => ns.foldr max 0 + 1

/-- The widths of all inner nodes. -/
def AndOr.widths : AndOr α → List ℕ :=
  AndOr.fold (fun _ => []) (fun ws => ws.length :: ws.flatten) fun ws => ws.length :: ws.flatten

def AndOr.map (f : α → β) : AndOr α → AndOr β := AndOr.fold (fun a => .leaf (f a)) .all .any

/-- AND is the meet of the children and OR their join. -/
def AndOr.eval {L : Type} [Lattice L] [BoundedOrder L] (v : α → L) : AndOr α → L :=
  AndOr.fold v (fun vs => vs.foldr (· ⊓ ·) ⊤) fun vs => vs.foldr (· ⊔ ·) ⊥

inductive Item (α : Type)
  | lparen
  | rparen
  | and
  | or
  | atom (a : α)
  deriving DecidableEq

/-- Lists with a separator between them. -/
def joined {γ : Type} (sep : List γ) : List (List γ) → List γ
  | [] => []
  | l :: ls => l ++ ls.flatMap fun m => sep ++ m

/-- Infix form, with parentheses around every inner node. -/
def AndOr.render : AndOr α → List (Item α) :=
  AndOr.fold (fun a => [.atom a]) (fun ls => .lparen :: joined [.and] ls ++ [.rparen])
    fun ls => .lparen :: joined [.or] ls ++ [.rparen]

section equations
variable (ts : List (AndOr α))

@[simp] theorem AndOr.leaves_leaf (a : α) : (AndOr.leaf a).leaves = [a] := rfl

@[simp] theorem AndOr.leaves_all : (AndOr.all ts).leaves = ts.flatMap AndOr.leaves :=
  AndOr.fold_all _ _ _ ts

@[simp] theorem AndOr.leaves_any : (AndOr.any ts).leaves = ts.flatMap AndOr.leaves :=
  AndOr.fold_any _ _ _ ts

@[simp] theorem AndOr.nesting_leaf (a : α) : (AndOr.leaf a).nesting = 0 := rfl

@[simp] theorem AndOr.nesting_all :
    (AndOr.all ts).nesting = (ts.map AndOr.nesting).foldr max 0 + 1 := AndOr.fold_all _ _ _ ts

@[simp] theorem AndOr.nesting_any :
    (AndOr.any ts).nesting = (ts.map AndOr.nesting).foldr max 0 + 1 := AndOr.fold_any _ _ _ ts

@[simp] theorem AndOr.widths_leaf (a : α) : (AndOr.leaf a).widths = [] := rfl

@[simp] theorem AndOr.widths_all :
    (AndOr.all ts).widths = ts.length :: ts.flatMap AndOr.widths := by
  have h := AndOr.fold_all (fun _ : α => ([] : List ℕ)) (fun ws => ws.length :: ws.flatten)
    (fun ws => ws.length :: ws.flatten) ts
  rwa [List.length_map] at h

@[simp] theorem AndOr.widths_any :
    (AndOr.any ts).widths = ts.length :: ts.flatMap AndOr.widths := by
  have h := AndOr.fold_any (fun _ : α => ([] : List ℕ)) (fun ws => ws.length :: ws.flatten)
    (fun ws => ws.length :: ws.flatten) ts
  rwa [List.length_map] at h

@[simp] theorem AndOr.map_leaf (f : α → β) (a : α) : (AndOr.leaf a).map f = .leaf (f a) := rfl

@[simp] theorem AndOr.map_all (f : α → β) : (AndOr.all ts).map f = .all (ts.map (AndOr.map f)) :=
  AndOr.fold_all _ _ _ ts

@[simp] theorem AndOr.map_any (f : α → β) : (AndOr.any ts).map f = .any (ts.map (AndOr.map f)) :=
  AndOr.fold_any _ _ _ ts

section lattice
variable {L : Type} [Lattice L] [BoundedOrder L] (v : α → L)

@[simp] theorem AndOr.eval_leaf (a : α) : (AndOr.leaf a).eval v = v a := rfl

@[simp] theorem AndOr.eval_all :
    (AndOr.all ts).eval v = (ts.map (AndOr.eval v)).foldr (· ⊓ ·) ⊤ := AndOr.fold_all _ _ _ ts

@[simp] theorem AndOr.eval_any :
    (AndOr.any ts).eval v = (ts.map (AndOr.eval v)).foldr (· ⊔ ·) ⊥ := AndOr.fold_any _ _ _ ts

end lattice

@[simp] theorem AndOr.render_leaf (a : α) : (AndOr.leaf a).render = [.atom a] := rfl

theorem AndOr.render_all :
    (AndOr.all ts).render = .lparen :: joined [.and] (ts.map AndOr.render) ++ [.rparen] :=
  AndOr.fold_all _ _ _ ts

theorem AndOr.render_any :
    (AndOr.any ts).render = .lparen :: joined [.or] (ts.map AndOr.render) ++ [.rparen] :=
  AndOr.fold_any _ _ _ ts

end equations

def Item.atom? : Item α → Option α
  | .atom a => some a
  | _ => none

theorem filterMap_joined {γ : Type} {g : α → Option γ} {sep : List α} (hsep : sep.filterMap g = [])
    (ls : List (List α)) : (joined sep ls).filterMap g = ls.flatMap (List.filterMap g) := by
  cases ls with
  | nil => rfl
  | cons l ls =>
    rw [joined, List.filterMap_append, List.flatMap_cons, List.filterMap_flatMap]
    simp only [List.filterMap_append, hsep, List.nil_append]

theorem flatMap_joined {γ : Type} (g : α → List γ) (sep : List α) (ls : List (List α)) :
    (joined sep ls).flatMap g = joined (sep.flatMap g) (ls.map fun l => l.flatMap g) := by
  cases ls with
  | nil => rfl
  | cons l ls =>
    simp only [joined, List.flatMap_append, List.flatMap_assoc, List.map_cons, List.flatMap_map]

/-- The atoms of the infix form are the leaves. -/
theorem AndOr.render_atoms (t : AndOr α) : t.render.filterMap Item.atom? = t.leaves := by
  induction t with
  | leaf a => rfl
  | all ts ih =>
    rw [AndOr.render_all, AndOr.leaves_all, List.cons_append, List.filterMap_cons,
      List.filterMap_append, filterMap_joined rfl, List.flatMap_map]
    exact (List.append_nil _).trans (List.flatMap_congr ih)
  | any ts ih =>
    rw [AndOr.render_any, AndOr.leaves_any, List.cons_append, List.filterMap_cons,
      List.filterMap_append, filterMap_joined rfl, List.flatMap_map]
    exact (List.append_nil _).trans (List.flatMap_congr ih)

theorem AndOr.eval_map {L : Type} [Lattice L] [BoundedOrder L] (f : α → β) (v : β → L)
    (t : AndOr α) : (t.map f).eval v = t.eval (v ∘ f) := by
  induction t with
  | leaf a => rfl
  | all ts ih =>
    rw [AndOr.map_all, AndOr.eval_all, AndOr.eval_all, List.map_map]
    exact congrArg _ (List.map_congr_left ih)
  | any ts ih =>
    rw [AndOr.map_any, AndOr.eval_any, AndOr.eval_any, List.map_map]
    exact congrArg _ (List.map_congr_left ih)

theorem AndOr.leaves_map (f : α → β) (t : AndOr α) : (t.map f).leaves = t.leaves.map f := by
  induction t with
  | leaf a => rfl
  | all ts ih =>
    rw [AndOr.map_all, AndOr.leaves_all, AndOr.leaves_all, List.flatMap_map, List.map_flatMap]
    exact List.flatMap_congr ih
  | any ts ih =>
    rw [AndOr.map_any, AndOr.leaves_any, AndOr.leaves_any, List.flatMap_map, List.map_flatMap]
    exact List.flatMap_congr ih

/-- Binary expressions, as the parser reads them. -/
inductive Expr (α : Type)
  | atom (a : α)
  | and (l r : Expr α)
  | or (l r : Expr α)

def Expr.atoms : Expr α → List α
  | .atom a => [a]
  | .and l r => l.atoms ++ r.atoms
  | .or l r => l.atoms ++ r.atoms

def Expr.eval {L : Type} [Lattice L] (v : α → L) : Expr α → L
  | .atom a => v a
  | .and l r => l.eval v ⊓ r.eval v
  | .or l r => l.eval v ⊔ r.eval v

/-! The grammar: a disjunction is conjunctions joined by OR, a conjunction is operands joined by
AND, an operand is an atom or a disjunction in parentheses. The number bounds the calls. -/
mutual

def disjunction : ℕ → List (Item α) → Option (Expr α × List (Item α))
  | 0, _ => none
  | n + 1, is => (conjunction n is).bind fun r => moreDisjuncts n r.1 r.2

def moreDisjuncts : ℕ → Expr α → List (Item α) → Option (Expr α × List (Item α))
  | 0, _, _ => none
  | n + 1, e, .or :: is => (conjunction n is).bind fun r => moreDisjuncts n (.or e r.1) r.2
  | _ + 1, e, is => some (e, is)

def conjunction : ℕ → List (Item α) → Option (Expr α × List (Item α))
  | 0, _ => none
  | n + 1, is => (operand n is).bind fun r => moreConjuncts n r.1 r.2

def moreConjuncts : ℕ → Expr α → List (Item α) → Option (Expr α × List (Item α))
  | 0, _, _ => none
  | n + 1, e, .and :: is => (operand n is).bind fun r => moreConjuncts n (.and e r.1) r.2
  | _ + 1, e, is => some (e, is)

def operand : ℕ → List (Item α) → Option (Expr α × List (Item α))
  | _ + 1, .atom a :: is => some (.atom a, is)
  | n + 1, .lparen :: is => (disjunction n is).bind fun r =>
    match r.2 with
    | .rparen :: is => some (r.1, is)
    | _ => none
  | _, _ => none

end

/-- The whole input is one disjunction. -/
def parse (is : List (Item α)) : Option (Expr α) :=
  (disjunction (4 * is.length + 2) is).bind fun r => if r.2.isEmpty then some r.1 else none

section reading

theorem moreConjuncts_stop {n : ℕ} (hn : 1 ≤ n) (e : Expr α) {rest : List (Item α)}
    (hrest : rest.head? ≠ some .and) : moreConjuncts n e rest = some (e, rest) := by
  obtain ⟨m, rfl⟩ : ∃ m, n = m + 1 := ⟨n - 1, by omega⟩
  cases rest with
  | nil => rfl
  | cons i is =>
    cases i with
    | and => exact absurd rfl hrest
    | _ => rfl

theorem moreDisjuncts_stop {n : ℕ} (hn : 1 ≤ n) (e : Expr α) {rest : List (Item α)}
    (hrest : rest.head? ≠ some .or) : moreDisjuncts n e rest = some (e, rest) := by
  obtain ⟨m, rfl⟩ : ∃ m, n = m + 1 := ⟨n - 1, by omega⟩
  cases rest with
  | nil => rfl
  | cons i is =>
    cases i with
    | or => exact absurd rfl hrest
    | _ => rfl

/-- The rendered tree is read as one operand with its leaves and its values. -/
def AndOr.ReadBack (t : AndOr α) : Prop :=
  ∃ e : Expr α, e.atoms = t.leaves ∧
    (∀ (L : Type) [Lattice L] [BoundedOrder L] (v : α → L), e.eval v = t.eval v) ∧
    ∀ n rest, 4 * t.render.length ≤ n → operand n (t.render ++ rest) = some (e, rest)

theorem AndOr.render_pos (t : AndOr α) : 1 ≤ t.render.length := by
  cases t with
  | leaf a => simp
  | all ts => simp [AndOr.render_all]
  | any ts => simp [AndOr.render_any]

/-- The children after the first one, each with the separator before it. -/
def further (sep : Item α) (ts : List (AndOr α)) : List (Item α) :=
  ts.flatMap fun t => sep :: t.render

@[simp] theorem further_nil (sep : Item α) : further sep [] = [] := rfl

@[simp] theorem further_cons (sep : Item α) (t : AndOr α) (ts : List (AndOr α)) :
    further sep (t :: ts) = sep :: (t.render ++ further sep ts) := rfl

theorem joined_render (sep : Item α) (t : AndOr α) (ts : List (AndOr α)) :
    joined [sep] ((t :: ts).map AndOr.render) = t.render ++ further sep ts := by
  rw [List.map_cons, joined, List.flatMap_map]
  rfl

theorem head_further_append (ts : List (AndOr α)) {rest : List (Item α)} {sep i : Item α}
    (hrest : rest.head? ≠ some i) (hi : sep ≠ i) :
    (further sep ts ++ rest).head? ≠ some i := by
  cases ts with
  | nil => exact hrest
  | cons t ts => simpa using hi

/-- A loop over further conjuncts reads them all. -/
theorem moreConjuncts_further {ts : List (AndOr α)} (hts : ∀ t ∈ ts, t.ReadBack) (e₀ : Expr α) :
    ∃ e : Expr α, e.atoms = e₀.atoms ++ ts.flatMap AndOr.leaves ∧
      (∀ (L : Type) [Lattice L] [BoundedOrder L] (v : α → L),
        e.eval v = e₀.eval v ⊓ (ts.map (AndOr.eval v)).foldr (· ⊓ ·) ⊤) ∧
      ∀ n rest, 4 * (further .and ts).length + 1 ≤ n → rest.head? ≠ some .and →
        moreConjuncts n e₀ (further .and ts ++ rest) = some (e, rest) := by
  induction ts generalizing e₀ with
  | nil =>
    refine ⟨e₀, by simp, fun L _ _ v => by simp, fun n rest hn hrest => ?_⟩
    exact moreConjuncts_stop (by omega) e₀ hrest
  | cons t ts ih =>
    obtain ⟨e₁, hatoms₁, heval₁, hread₁⟩ := hts t List.mem_cons_self
    obtain ⟨e, hatoms, heval, hread⟩ :=
      ih (fun t ht => hts t (List.mem_cons_of_mem _ ht)) (.and e₀ e₁)
    refine ⟨e, ?_, fun L _ _ v => ?_, fun n rest hn hrest => ?_⟩
    · rw [hatoms, Expr.atoms, hatoms₁, List.flatMap_cons, List.append_assoc]
    · rw [heval, Expr.eval, heval₁, List.map_cons, List.foldr_cons, inf_assoc]
    · rw [further_cons, List.length_cons, List.length_append] at hn
      obtain ⟨m, rfl⟩ : ∃ m, n = m + 1 := ⟨n - 1, by omega⟩
      rw [further_cons, List.cons_append, List.append_assoc, moreConjuncts,
        hread₁ m _ (by omega), Option.bind_some]
      exact hread m rest (by omega) hrest

/-- A loop over further disjuncts, each a single operand, reads them all. -/
theorem moreDisjuncts_further {ts : List (AndOr α)} (hts : ∀ t ∈ ts, t.ReadBack) (e₀ : Expr α) :
    ∃ e : Expr α, e.atoms = e₀.atoms ++ ts.flatMap AndOr.leaves ∧
      (∀ (L : Type) [Lattice L] [BoundedOrder L] (v : α → L),
        e.eval v = e₀.eval v ⊔ (ts.map (AndOr.eval v)).foldr (· ⊔ ·) ⊥) ∧
      ∀ n rest, 4 * (further .or ts).length + 1 ≤ n → rest.head? ≠ some .and →
        rest.head? ≠ some .or →
        moreDisjuncts n e₀ (further .or ts ++ rest) = some (e, rest) := by
  induction ts generalizing e₀ with
  | nil =>
    refine ⟨e₀, by simp, fun L _ _ v => by simp, fun n rest hn _ hrest => ?_⟩
    exact moreDisjuncts_stop (by omega) e₀ hrest
  | cons t ts ih =>
    obtain ⟨e₁, hatoms₁, heval₁, hread₁⟩ := hts t List.mem_cons_self
    obtain ⟨e, hatoms, heval, hread⟩ :=
      ih (fun t ht => hts t (List.mem_cons_of_mem _ ht)) (.or e₀ e₁)
    refine ⟨e, ?_, fun L _ _ v => ?_, fun n rest hn hand hor => ?_⟩
    · rw [hatoms, Expr.atoms, hatoms₁, List.flatMap_cons, List.append_assoc]
    · rw [heval, Expr.eval, heval₁, List.map_cons, List.foldr_cons, sup_assoc]
    · rw [further_cons, List.length_cons, List.length_append] at hn
      obtain ⟨m, rfl⟩ : ∃ m, n = m + 2 := ⟨n - 2, by omega⟩
      -- what follows an operand here is OR or the end of the disjunction
      have hnext := head_further_append ts hand (by simp : (Item.or : Item α) ≠ .and)
      have hstop := moreConjuncts_stop (n := m) (by omega) e₁ hnext
      rw [further_cons, List.cons_append, List.append_assoc, moreDisjuncts, conjunction,
        hread₁ m _ (by omega), Option.bind_some, hstop, Option.bind_some]
      exact hread (m + 1) rest (by omega) hand hor

/-- Every tree whose inner nodes have children is read back. -/
theorem AndOr.readBack (t : AndOr α) (hw : ∀ w ∈ t.widths, 1 ≤ w) : t.ReadBack := by
  induction t with
  | leaf a =>
    refine ⟨.atom a, rfl, fun L _ _ v => rfl, fun n rest hn => ?_⟩
    rw [AndOr.render_leaf, List.length_singleton] at hn
    obtain ⟨m, rfl⟩ : ∃ m, n = m + 1 := ⟨n - 1, by omega⟩
    rfl
  | all ts ih =>
    simp only [AndOr.widths_all, List.forall_mem_cons, List.mem_flatMap] at hw
    obtain ⟨t, ts, rfl⟩ := List.exists_cons_of_length_pos hw.1
    have hts : ∀ u ∈ t :: ts, u.ReadBack := fun u hu => ih u hu fun w hwu => hw.2 w ⟨u, hu, hwu⟩
    obtain ⟨e₁, hatoms₁, heval₁, hread₁⟩ := hts t List.mem_cons_self
    obtain ⟨e, hatoms, heval, hread⟩ :=
      moreConjuncts_further (fun u hu => hts u (List.mem_cons_of_mem _ hu)) e₁
    refine ⟨e, ?_, fun L _ _ v => ?_, fun n rest hn => ?_⟩
    · rw [hatoms, hatoms₁, AndOr.leaves_all, List.flatMap_cons]
    · rw [heval, heval₁, AndOr.eval_all, List.map_cons, List.foldr_cons]
    · rw [AndOr.render_all, joined_render] at hn ⊢
      simp only [List.length_append, List.length_cons, List.length_nil] at hn
      obtain ⟨m, rfl⟩ : ∃ m, n = m + 3 := ⟨n - 3, by omega⟩
      have hstop := moreDisjuncts_stop (n := m + 1) (by omega) e
        (by simp : (Item.rparen :: rest).head? ≠ some .or)
      have hmore := hread m (.rparen :: rest) (by omega) (by simp)
      simp only [List.cons_append, List.append_assoc, List.nil_append, operand, disjunction,
        conjunction]
      rw [hread₁ m _ (by omega), Option.bind_some, hmore, Option.bind_some, hstop,
        Option.bind_some]
  | any ts ih =>
    simp only [AndOr.widths_any, List.forall_mem_cons, List.mem_flatMap] at hw
    obtain ⟨t, ts, rfl⟩ := List.exists_cons_of_length_pos hw.1
    have hts : ∀ u ∈ t :: ts, u.ReadBack := fun u hu => ih u hu fun w hwu => hw.2 w ⟨u, hu, hwu⟩
    obtain ⟨e₁, hatoms₁, heval₁, hread₁⟩ := hts t List.mem_cons_self
    obtain ⟨e, hatoms, heval, hread⟩ :=
      moreDisjuncts_further (fun u hu => hts u (List.mem_cons_of_mem _ hu)) e₁
    refine ⟨e, ?_, fun L _ _ v => ?_, fun n rest hn => ?_⟩
    · rw [hatoms, hatoms₁, AndOr.leaves_any, List.flatMap_cons]
    · rw [heval, heval₁, AndOr.eval_any, List.map_cons, List.foldr_cons]
    · rw [AndOr.render_any, joined_render] at hn ⊢
      simp only [List.length_append, List.length_cons, List.length_nil] at hn
      obtain ⟨m, rfl⟩ : ∃ m, n = m + 3 := ⟨n - 3, by omega⟩
      have hand : (Item.rparen :: rest).head? ≠ some .and := by simp
      have hstop := moreConjuncts_stop (n := m) (by omega) e₁
        (head_further_append ts hand (by simp : (Item.or : Item α) ≠ .and))
      have hmore := hread (m + 1) (.rparen :: rest) (by omega) hand (by simp)
      simp only [List.cons_append, List.append_assoc, List.nil_append, operand, disjunction,
        conjunction]
      rw [hread₁ m _ (by omega), Option.bind_some, hstop, Option.bind_some, hmore,
        Option.bind_some]

/-- Reading what was written gives an expression with the same conditions, in order, and the
same value. -/
theorem parse_render (t : AndOr α) (hw : ∀ w ∈ t.widths, 1 ≤ w) :
    ∃ e : Expr α, parse t.render = some e ∧ e.atoms = t.leaves ∧
      ∀ (L : Type) [Lattice L] [BoundedOrder L] (v : α → L), e.eval v = t.eval v := by
  obtain ⟨e, hatoms, heval, hread⟩ := t.readBack hw
  refine ⟨e, ?_, hatoms, heval⟩
  have hpos := t.render_pos
  have hoperand := hread (4 * t.render.length) [] le_rfl
  have hand := moreConjuncts_stop (n := 4 * t.render.length) (by omega) e
    (by simp : ([] : List (Item α)).head? ≠ some .and)
  have hor := moreDisjuncts_stop (n := 4 * t.render.length + 1) (by omega) e
    (by simp : ([] : List (Item α)).head? ≠ some .or)
  rw [List.append_nil] at hoperand
  rw [parse, disjunction, conjunction, hoperand, Option.bind_some, hand, Option.bind_some, hor]
  rfl

end reading
end PlaidRuntime.AndOrTree
