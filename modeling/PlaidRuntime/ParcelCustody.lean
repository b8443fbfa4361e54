import Mathlib

/-!
# Custody of parcels

Parcels are accepted for delivery at once or after a delay. A delayed parcel passes from
hand to hand, is stamped with the time it falls due, rests in a keyed store, and is handed
over from a snapshot of that store before its entry is forgotten. Hands are lists whose
order does not matter.
-/
namespace PlaidRuntime.ParcelCustody

/-- A parcel accepted at a time of the clock, with its delay unless it went out at once. -/
structure Receipt (M : Type) where
  item : M
  delay : Option ℕ
  clock : ℕ

structure Flow (M K : Type) where
  clock : ℕ
  /-- Where parcels are handed over, and what has been taken from there. -/
  queue : List M
  received : List M
  /-- Parcels in some hand, with the delay they were given or the time they fall due. -/
  relative : List (ℕ × M)
  absolute : List (ℕ × M)
  store : K → Option (ℕ × M)
  snapshot : List (ℕ × M)
  /-- The entry to be forgotten next. -/
  forgetting : Option K
  accepted : List (Receipt M)
  handed : List (M × ℕ)
  known : List M

variable {M K : Type} [DecidableEq K] (key : M → K)

inductive Step (f : Flow M K) : Flow M K → Prop
  | tick (n : ℕ) (h : f.clock ≤ n) : Step f { f with clock := n }
  | produce (m : M) (fresh : key m ∉ f.known.map key) :
      Step f { f with queue := f.queue ++ [m], known := m :: f.known }
  | receive (m : M) (q : List M) (h : f.queue = m :: q) :
      Step f { f with queue := q, received := f.received ++ [m] }
  | refuse (m : M) (fresh : key m ∉ f.known.map key) : Step f { f with known := m :: f.known }
  | sendNow (m : M) (fresh : key m ∉ f.known.map key) :
      Step f { f with
        queue := f.queue ++ [m]
        known := m :: f.known
        accepted := f.accepted ++ [⟨m, none, f.clock⟩]
        handed := f.handed ++ [(m, f.clock)] }
  | sendLater (m : M) (k : ℕ) (relative : List (ℕ × M)) (fresh : key m ∉ f.known.map key)
      (h : ∀ p, p ∈ relative ↔ p ∈ f.relative ∨ p = (k, m)) :
      Step f { f with
        relative := relative
        known := m :: f.known
        accepted := f.accepted ++ [⟨m, some k, f.clock⟩] }
  | pass (relative : List (ℕ × M)) (h : ∀ p, p ∈ relative ↔ p ∈ f.relative) :
      Step f { f with relative := relative }
  | stamp (d : ℕ) (m : M) (relative absolute : List (ℕ × M)) (hm : (d, m) ∈ f.relative)
      (hsub : ∀ p ∈ relative, p ∈ f.relative) (hrel : ∀ p ∈ f.relative, p ∈ relative ∨ p = (d, m))
      (habs : ∀ p, p ∈ absolute ↔ p ∈ f.absolute ∨ p = (d + f.clock, m)) :
      Step f { f with relative := relative, absolute := absolute }
  | persist (d : ℕ) (m : M) (absolute : List (ℕ × M)) (hm : (d, m) ∈ f.absolute)
      (hsub : ∀ p ∈ absolute, p ∈ f.absolute) (habs : ∀ p ∈ f.absolute, p ∈ absolute ∨ p = (d, m)) :
      Step f { f with
        absolute := absolute
        store := Function.update f.store (key m) (some (d, m)) }
  | look (snapshot : List (ℕ × M)) (h : ∀ p ∈ snapshot, p ∈ f.snapshot ∨ ∃ k, f.store k = some p) :
      Step f { f with snapshot := snapshot }
  | handOver (d : ℕ) (m : M) (snapshot : List (ℕ × M)) (hm : (d, m) ∈ f.snapshot)
      (hsub : ∀ p ∈ snapshot, p ∈ f.snapshot) (due : d ≤ f.clock) :
      Step f { f with
        queue := f.queue ++ [m]
        handed := f.handed ++ [(m, f.clock)]
        snapshot := snapshot
        forgetting := some (key m) }
  | forget (k : K) (h : f.forgetting = some k) :
      Step f { f with store := Function.update f.store k none, forgetting := none }

section hands
variable {key} {f : Flow M K} {a b c e : List (ℕ × M)} {d : ℕ} {m : M}

theorem Step.take (h : f.relative = (d, m) :: (a ++ b)) :
    Step key f { f with relative := a ++ (d, m) :: b } := by
  apply Step.pass
  intro p
  rw [h]
  simp only [List.mem_append, List.mem_cons]
  tauto

theorem Step.stampOne (hr : f.relative = a ++ (d, m) :: b) (ha : f.absolute = c ++ e) :
    Step key f { f with relative := a ++ b, absolute := c ++ (d + f.clock, m) :: e } := by
  apply Step.stamp d m
  · simp [hr]
  · intro p hp
    rw [hr]
    simp only [List.mem_append, List.mem_cons] at hp ⊢
    tauto
  · intro p hp
    rw [hr] at hp
    simp only [List.mem_append, List.mem_cons] at hp ⊢
    tauto
  · intro p
    rw [ha]
    simp only [List.mem_append, List.mem_cons]
    tauto

theorem Step.persistOne (ha : f.absolute = c ++ (d, m) :: e) :
    Step key f { f with
      absolute := c ++ e
      store := Function.update f.store (key m) (some (d, m)) } := by
  apply Step.persist d m
  · simp [ha]
  · intro p hp
    rw [ha]
    simp only [List.mem_append, List.mem_cons] at hp ⊢
    tauto
  · intro p hp
    rw [ha] at hp
    simp only [List.mem_append, List.mem_cons] at hp ⊢
    tauto

end hands

/-- The parcel is in the queue, was taken from it, is in a hand or in the store. -/
def Located (f : Flow M K) (m : M) : Prop :=
  m ∈ f.queue ∨ m ∈ f.received ∨ (∃ d, (d, m) ∈ f.relative) ∨ (∃ d, (d, m) ∈ f.absolute) ∨
    ∃ d, f.store (key m) = some (d, m)

/-- Nothing hands the parcel of a receipt over before it is due. -/
structure NotEarly (f : Flow M K) (r : Receipt M) (k : ℕ) : Prop where
  clock : r.clock ≤ f.clock
  relative : ∀ d, (d, r.item) ∈ f.relative → k ≤ d
  absolute : ∀ d, (d, r.item) ∈ f.absolute → r.clock + k ≤ d
  store : ∀ x d, f.store x = some (d, r.item) → r.clock + k ≤ d
  snapshot : ∀ d, (d, r.item) ∈ f.snapshot → r.clock + k ≤ d
  handed : ∀ c, (r.item, c) ∈ f.handed → r.clock + k ≤ c

/-- Every parcel in sight is known, and keys name parcels. -/
structure Registered (f : Flow M K) : Prop where
  fresh : (f.known.map key).Nodup
  accepted : ∀ r ∈ f.accepted, r.item ∈ f.known
  relative : ∀ d m, (d, m) ∈ f.relative → m ∈ f.known
  absolute : ∀ d m, (d, m) ∈ f.absolute → m ∈ f.known
  store : ∀ k d m, f.store k = some (d, m) → key m = k ∧ m ∈ f.known
  snapshot : ∀ d m, (d, m) ∈ f.snapshot → m ∈ f.known
  handed : ∀ m c, (m, c) ∈ f.handed → m ∈ f.known
  forgetting : ∀ k, f.forgetting = some k →
    ∃ m ∈ f.known, key m = k ∧ (m ∈ f.queue ∨ m ∈ f.received)

structure Sound (f : Flow M K) : Prop where
  registered : Registered key f
  located : ∀ r ∈ f.accepted, Located key f r.item
  punctual : ∀ r ∈ f.accepted, ∀ k, r.delay = some k → NotEarly f r k

variable {key}

omit [DecidableEq K] in
theorem Registered.eq_of_key {f : Flow M K} (h : Registered key f) {m m' : M} (hm : m ∈ f.known)
    (hm' : m' ∈ f.known) (hk : key m = key m') : m = m' :=
  List.inj_on_of_nodup_map h.fresh hm hm' hk

omit [DecidableEq K] in
theorem Registered.not_known {f : Flow M K} {m : M} (fresh : key m ∉ f.known.map key) :
    m ∉ f.known := fun hm => fresh (List.mem_map_of_mem hm)

omit [DecidableEq K] in
/-- A new parcel with a fresh key can be registered. -/
theorem Registered.add {f : Flow M K} (h : Registered key f) {m : M}
    (fresh : key m ∉ f.known.map key) : Registered key { f with known := m :: f.known } where
  fresh := List.nodup_cons.mpr ⟨fresh, h.fresh⟩
  accepted r hr := List.mem_cons_of_mem m (h.accepted r hr)
  relative d x hx := List.mem_cons_of_mem m (h.relative d x hx)
  absolute d x hx := List.mem_cons_of_mem m (h.absolute d x hx)
  store k d x hx := ⟨(h.store k d x hx).1, List.mem_cons_of_mem m (h.store k d x hx).2⟩
  snapshot d x hx := List.mem_cons_of_mem m (h.snapshot d x hx)
  handed x c hx := List.mem_cons_of_mem m (h.handed x c hx)
  forgetting k hk := by
    obtain ⟨x, hx, hkey, hin⟩ := h.forgetting k hk
    exact ⟨x, List.mem_cons_of_mem m hx, hkey, hin⟩

omit [DecidableEq K] in
theorem Registered.enqueue {f : Flow M K} (h : Registered key f) (m : M) :
    Registered key { f with queue := f.queue ++ [m] } := by
  refine { h with forgetting := fun k hk => ?_ }
  obtain ⟨x, hx, hkey, hin⟩ := h.forgetting k hk
  exact ⟨x, hx, hkey, hin.imp_left (List.mem_append_left _)⟩

theorem Registered.step {f g : Flow M K} (h : Registered key f) (hs : Step key f g) :
    Registered key g := by
  cases hs with
  | tick n hn => exact { h with }
  | produce m fresh => exact (h.add fresh).enqueue m
  | receive m q hq =>
    refine { h with forgetting := fun k hk => ?_ }
    obtain ⟨x, hx, hkey, hin⟩ := h.forgetting k hk
    refine ⟨x, hx, hkey, ?_⟩
    rw [hq] at hin
    simp only [List.mem_cons, List.mem_append] at hin ⊢
    tauto
  | refuse m fresh => exact h.add fresh
  | sendNow m fresh =>
    have hadd := (h.add fresh).enqueue m
    refine { hadd with accepted := fun r hr => ?_, handed := fun x c hx => ?_ }
    · rcases List.mem_append.mp hr with hr | hr
      · exact hadd.accepted r hr
      · rw [List.mem_singleton.mp hr]
        exact List.mem_cons_self
    · rcases List.mem_append.mp hx with hx | hx
      · exact hadd.handed x c hx
      · cases List.mem_singleton.mp hx
        exact List.mem_cons_self
  | sendLater m k relative fresh hrel =>
    have hadd := h.add fresh
    refine { hadd with accepted := fun r hr => ?_, relative := fun d x hx => ?_ }
    · rcases List.mem_append.mp hr with hr | hr
      · exact hadd.accepted r hr
      · rw [List.mem_singleton.mp hr]
        exact List.mem_cons_self
    · rcases (hrel _).mp hx with hx | hx
      · exact hadd.relative d x hx
      · cases hx
        exact List.mem_cons_self
  | pass relative hrel => exact { h with relative := fun d x hx => h.relative d x ((hrel _).mp hx) }
  | stamp d m relative absolute hm hsub hrel habs =>
    refine { h with relative := fun e x hx => h.relative e x (hsub _ hx), absolute := fun e x hx => ?_ }
    rcases (habs _).mp hx with hx | hx
    · exact h.absolute e x hx
    · cases hx
      exact h.relative d m hm
  | persist d m absolute hm hsub habs =>
    refine { h with absolute := fun e x hx => h.absolute e x (hsub _ hx), store := fun k e x hx => ?_ }
    simp only [Function.update_apply] at hx
    split at hx
    · rename_i hk
      cases hx
      exact ⟨hk.symm, h.absolute d m hm⟩
    · exact h.store k e x hx
  | look snapshot hsnap =>
    refine { h with snapshot := fun d x hx => ?_ }
    rcases hsnap _ hx with hx | ⟨k, hx⟩
    · exact h.snapshot d x hx
    · exact (h.store k d x hx).2
  | handOver d m snapshot hm hsub due =>
    refine { h.enqueue m with
      snapshot := fun e x hx => h.snapshot e x (hsub _ hx)
      handed := fun x c hx => ?_
      forgetting := fun k hk => ?_ }
    · rcases List.mem_append.mp hx with hx | hx
      · exact h.handed x c hx
      · cases List.mem_singleton.mp hx
        exact h.snapshot d m hm
    · cases hk
      exact ⟨m, h.snapshot d m hm, rfl, Or.inl (by simp)⟩
  | forget k hk =>
    refine { h with store := fun k' d x hx => ?_, forgetting := fun k' hk' => by cases hk' }
    simp only [Function.update_apply] at hx
    split at hx
    · cases hx
    · exact h.store k' d x hx

/-- A parcel that is accounted for stays so. -/
theorem Located.step {f g : Flow M K} (hreg : Registered key f) {m : M} (hm : m ∈ f.known)
    (h : Located key f m) (hs : Step key f g) : Located key g m := by
  unfold Located at h ⊢
  cases hs with
  | tick n hn => exact h
  | produce x fresh =>
    simp only [List.mem_append]
    tauto
  | receive x q hq =>
    rw [hq] at h
    simp only [List.mem_append, List.mem_cons] at h ⊢
    tauto
  | refuse x fresh => exact h
  | sendNow x fresh =>
    simp only [List.mem_append]
    tauto
  | sendLater x k relative fresh hrel =>
    simp only [hrel]
    rcases h with h | h | ⟨d, h⟩ | h | h
    · exact Or.inl h
    · exact Or.inr (Or.inl h)
    · exact Or.inr (Or.inr (Or.inl ⟨d, Or.inl h⟩))
    · exact Or.inr (Or.inr (Or.inr (Or.inl h)))
    · exact Or.inr (Or.inr (Or.inr (Or.inr h)))
  | pass relative hrel =>
    simp only [hrel]
    exact h
  | stamp d x relative absolute hx hsub hrel habs =>
    rcases h with h | h | ⟨e, h⟩ | ⟨e, h⟩ | h
    · exact Or.inl h
    · exact Or.inr (Or.inl h)
    · rcases hrel _ h with h | h
      · exact Or.inr (Or.inr (Or.inl ⟨e, h⟩))
      · cases h
        exact Or.inr (Or.inr (Or.inr (Or.inl ⟨_, (habs _).mpr (Or.inr rfl)⟩)))
    · exact Or.inr (Or.inr (Or.inr (Or.inl ⟨e, (habs _).mpr (Or.inl h)⟩)))
    · exact Or.inr (Or.inr (Or.inr (Or.inr h)))
  | persist d x absolute hx hsub habs =>
    by_cases hk : key m = key x
    · -- the key names one parcel, so it is this one that is stored
      obtain rfl := hreg.eq_of_key hm (hreg.absolute d x hx) hk
      exact Or.inr (Or.inr (Or.inr (Or.inr ⟨d, Function.update_self ..⟩)))
    · rcases h with h | h | h | ⟨e, h⟩ | ⟨e, h⟩
      · exact Or.inl h
      · exact Or.inr (Or.inl h)
      · exact Or.inr (Or.inr (Or.inl h))
      · rcases habs _ h with h | h
        · exact Or.inr (Or.inr (Or.inr (Or.inl ⟨e, h⟩)))
        · cases h
          exact absurd rfl hk
      · exact Or.inr (Or.inr (Or.inr (Or.inr ⟨e, (Function.update_of_ne hk _ _).trans h⟩)))
  | look snapshot hsnap => exact h
  | handOver d x snapshot hx hsub due =>
    simp only [List.mem_append]
    tauto
  | forget k hk =>
    by_cases hkk : key m = k
    · obtain ⟨x, hx, hkey, hin⟩ := hreg.forgetting k hk
      obtain rfl := hreg.eq_of_key hm hx (hkk.trans hkey.symm)
      rcases hin with hin | hin
      · exact Or.inl hin
      · exact Or.inr (Or.inl hin)
    · simp only [Function.update_of_ne hkk]
      exact h

/-- A receipt already given stays punctual. -/
theorem NotEarly.step {f g : Flow M K} {r : Receipt M} {k : ℕ}
    (hr : r.item ∈ f.known) (h : NotEarly f r k) (hs : Step key f g) : NotEarly g r k := by
  cases hs with
  | tick n hn => exact { h with clock := h.clock.trans hn }
  | produce x fresh => exact { h with }
  | receive x q hq => exact { h with }
  | refuse x fresh => exact { h with }
  | sendNow x fresh =>
    refine { h with handed := fun c hc => ?_ }
    rcases List.mem_append.mp hc with hc | hc
    · exact h.handed c hc
    · cases List.mem_singleton.mp hc
      exact absurd hr (Registered.not_known fresh)
  | sendLater x k' relative fresh hrel =>
    refine { h with relative := fun d hd => ?_ }
    rcases (hrel _).mp hd with hd | hd
    · exact h.relative d hd
    · cases hd
      exact absurd hr (Registered.not_known fresh)
  | pass relative hrel => exact { h with relative := fun d hd => h.relative d ((hrel _).mp hd) }
  | stamp d x relative absolute hx hsub hrel habs =>
    refine { h with relative := fun e he => h.relative e (hsub _ he), absolute := fun e he => ?_ }
    rcases (habs _).mp he with he | he
    · exact h.absolute e he
    · cases he
      have hk := h.relative d hx
      have hc := h.clock
      omega
  | persist d x absolute hx hsub habs =>
    refine { h with absolute := fun e he => h.absolute e (hsub _ he), store := fun y e he => ?_ }
    simp only [Function.update_apply] at he
    split at he
    · cases he
      exact h.absolute d hx
    · exact h.store y e he
  | look snapshot hsnap =>
    refine { h with snapshot := fun d hd => ?_ }
    rcases hsnap _ hd with hd | ⟨y, hd⟩
    · exact h.snapshot d hd
    · exact h.store y d hd
  | handOver d x snapshot hx hsub due =>
    refine { h with snapshot := fun e he => h.snapshot e (hsub _ he), handed := fun c hc => ?_ }
    rcases List.mem_append.mp hc with hc | hc
    · exact h.handed c hc
    · cases List.mem_singleton.mp hc
      exact (h.snapshot d hx).trans due
  | forget y hy =>
    refine { h with store := fun z e he => ?_ }
    simp only [Function.update_apply] at he
    split at he
    · cases he
    · exact h.store z e he

/-- Receipts are old or were just given. -/
theorem Step.accepted {f g : Flow M K} (hs : Step key f g) {r : Receipt M} (hr : r ∈ g.accepted) :
    r ∈ f.accepted ∨
      (∃ m, key m ∉ f.known.map key ∧ r = ⟨m, none, f.clock⟩ ∧ m ∈ g.queue) ∨
      ∃ m k, key m ∉ f.known.map key ∧ r = ⟨m, some k, f.clock⟩ ∧ (k, m) ∈ g.relative ∧
        g.clock = f.clock ∧ (∀ p, p ∈ g.relative → p ∈ f.relative ∨ p = (k, m)) ∧
        g.absolute = f.absolute ∧ g.store = f.store ∧ g.snapshot = f.snapshot ∧
        g.handed = f.handed := by
  cases hs with
  | sendNow m fresh =>
    rcases List.mem_append.mp hr with hr | hr
    · exact Or.inl hr
    · exact Or.inr (Or.inl ⟨m, fresh, List.mem_singleton.mp hr, by simp⟩)
  | sendLater m k relative fresh hrel =>
    rcases List.mem_append.mp hr with hr | hr
    · exact Or.inl hr
    · exact Or.inr (Or.inr ⟨m, k, fresh, List.mem_singleton.mp hr, (hrel _).mpr (Or.inr rfl), rfl,
        fun p hp => (hrel p).mp hp, rfl, rfl, rfl, rfl⟩)
  | _ => exact Or.inl hr

theorem Sound.step {f g : Flow M K} (h : Sound key f) (hs : Step key f g) : Sound key g := by
  have hreg := h.registered
  refine ⟨hreg.step hs, fun r hr => ?_, fun r hr k hk => ?_⟩
  · rcases hs.accepted hr with hr | ⟨m, -, rfl, hm⟩ | ⟨m, k, -, rfl, hm, -⟩
    · exact (h.located r hr).step hreg (hreg.accepted r hr) hs
    · exact Or.inl hm
    · exact Or.inr (Or.inr (Or.inl ⟨k, hm⟩))
  · rcases hs.accepted hr with hr | ⟨m, -, rfl, -⟩ |
      ⟨m, k', fresh, rfl, -, hclock, hrel, habs, hstore, hsnap, hhanded⟩
    · exact (h.punctual r hr k hk).step (hreg.accepted r hr) hs
    · cases hk
    · cases hk
      -- the parcel was unknown before, so no other hand has it
      have hnew : m ∉ f.known := Registered.not_known fresh
      constructor
      · exact hclock.ge
      · intro d hd
        rcases hrel _ hd with hd | hd
        · exact absurd (hreg.relative d m hd) hnew
        · exact (Prod.ext_iff.mp hd).1.ge
      · intro d hd
        rw [habs] at hd
        exact absurd (hreg.absolute d m hd) hnew
      · intro x d hd
        rw [hstore] at hd
        exact absurd (hreg.store x d m hd).2 hnew
      · intro d hd
        rw [hsnap] at hd
        exact absurd (hreg.snapshot d m hd) hnew
      · intro c hc
        rw [hhanded] at hc
        exact absurd (hreg.handed m c hc) hnew

omit [DecidableEq K] in
/-- When no hand holds anything and the queue is empty, every accepted parcel was taken from
the queue or rests in the store. -/
theorem Sound.settled {f : Flow M K} (h : Sound key f) (hq : f.queue = []) (hr : f.relative = [])
    (ha : f.absolute = []) : ∀ r ∈ f.accepted, r.item ∈ f.received ∨
      ∃ d, f.store (key r.item) = some (d, r.item) := by
  intro r hr'
  rcases h.located r hr' with hl | hl | ⟨d, hl⟩ | ⟨d, hl⟩ | hl
  · simp [hq] at hl
  · exact Or.inl hl
  · simp [hr] at hl
  · simp [ha] at hl
  · exact Or.inr hl

end PlaidRuntime.ParcelCustody
