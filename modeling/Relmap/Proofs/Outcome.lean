/-!
# Outcomes

Steps that may fail, one after another: the whole gives a value if every step gives one.
-/

namespace Relmap.Outcome

variable {ε α β γ : Type}

theorem bind_eq_ok {x : Except ε α} {f : α → Except ε β} {b : β} :
    x >>= f = .ok b ↔ ∃ a, x = .ok a ∧ f a = .ok b := by
  cases x with
  | error e => exact ⟨fun h => (nomatch h), fun ⟨_, h, _⟩ => (nomatch h)⟩
  | ok a => exact ⟨fun h => ⟨a, rfl, h⟩, fun ⟨_, h, hb⟩ => Except.ok.inj h ▸ hb⟩

theorem bind_eq_error {x : Except ε α} {f : α → Except ε β} {e : ε} :
    x >>= f = .error e ↔ x = .error e ∨ ∃ a, x = .ok a ∧ f a = .error e := by
  cases x with
  | error e' =>
    refine ⟨fun h => .inl (congrArg _ (Except.error.inj h)), ?_⟩
    rintro (h | ⟨_, h, -⟩)
    · exact congrArg _ (Except.error.inj h)
    · cases h
  | ok a =>
    refine ⟨fun h => .inr ⟨a, rfl, h⟩, ?_⟩
    rintro (h | ⟨_, h, failed⟩)
    · cases h
    · exact Except.ok.inj h ▸ failed

theorem map_eq_ok {x : Except ε α} {f : α → β} {b : β} :
    x.map f = .ok b ↔ ∃ a, x = .ok a ∧ f a = b := by
  cases x with
  | error e => exact ⟨fun h => (nomatch h), fun ⟨_, h, _⟩ => (nomatch h)⟩
  | ok a => exact ⟨fun h => ⟨a, rfl, Except.ok.inj h⟩, fun ⟨_, h, hb⟩ => by rw [h, ← hb]; rfl⟩

theorem map_bind (x : Except ε α) (f : α → β) (g : β → Except ε γ) :
    x.map f >>= g = x >>= fun a => g (f a) := by
  cases x <;> rfl

theorem bind_map (x : Except ε α) (f : α → Except ε β) (g : β → γ) :
    (x >>= f).map g = x >>= fun a => (f a).map g := by
  cases x <;> rfl

theorem map_map (x : Except ε α) (f : α → β) (g : β → γ) :
    (x.map f).map g = x.map fun a => g (f a) := by
  cases x <;> rfl

theorem pure_eq_ok {a b : α} : (pure a : Except ε α) = .ok b ↔ a = b :=
  ⟨Except.ok.inj, congrArg Except.ok⟩

theorem mapError_eq_ok {δ : Type} {x : Except ε α} {f : ε → δ} {a : α} :
    x.mapError f = .ok a ↔ x = .ok a := by
  cases x with
  | error e => exact ⟨fun h => (nomatch h), fun h => (nomatch h)⟩
  | ok b => exact ⟨fun h => congrArg _ (Except.ok.inj h), fun h => congrArg _ (Except.ok.inj h)⟩

/-- What may be missing, with a failure in its place. -/
theorem found_eq_ok {o : Option α} {e : ε} {a : α} :
    (match o with
      | some b => Except.ok b
      | none => .error e) = .ok a ↔ o = some a := by
  cases o with
  | none => exact ⟨fun h => (nomatch h), fun h => (nomatch h)⟩
  | some b => exact pure_eq_ok.trans Option.some_inj.symm

/-- The cause of a failure, where the value of a success is of no interest. -/
def cause? : Except ε α → Option ε
  | .ok _ => none
  | .error e => some e

theorem cause?_eq_some {x : Except ε α} {e : ε} : cause? x = some e ↔ x = .error e := by
  cases x with
  | ok a => exact ⟨fun h => (nomatch h), fun h => (nomatch h)⟩
  | error e' =>
    exact ⟨fun h => congrArg _ (Option.some.inj h), fun h => congrArg _ (Except.error.inj h)⟩

theorem cause?_map (x : Except ε α) (f : α → β) : cause? (x.map f) = cause? x := by
  cases x <;> rfl

/-- Where the next step has the same cause to fail after every value. -/
theorem cause?_bind {x : Except ε α} {f : α → Except ε β} {o : Option ε}
    (h : ∀ a, cause? (f a) = o) : cause? (x >>= f) = (cause? x).or o := by
  cases x with
  | error e => rfl
  | ok a => exact h a

/-- A step for each member of a list gives all values if each step gives one. -/
theorem mapM_eq_ok {f : α → Except ε β} {l : List α} {bs : List β} :
    l.mapM f = .ok bs ↔ l.map f = bs.map .ok := by
  induction l generalizing bs with
  | nil => cases bs <;> simp [pure, Except.pure]
  | cons a l ih =>
    rw [List.mapM_cons, bind_eq_ok]
    constructor
    · rintro ⟨b, first, h⟩
      obtain ⟨rest, others, h⟩ := bind_eq_ok.mp h
      rw [← pure_eq_ok.mp h, List.map_cons, List.map_cons, first, ih.mp others]
    · intro h
      cases bs with
      | nil => cases h
      | cons b bs =>
        obtain ⟨first, others⟩ := List.cons.inj h
        exact ⟨b, first, bind_eq_ok.mpr ⟨bs, ih.mpr others, rfl⟩⟩

/-- A step for each member of a list fails as the first that fails. -/
theorem mapM_eq_error {f : α → Except ε β} {l : List α} {e : ε} :
    l.mapM f = .error e ↔ ∃ before a after, l = before ++ a :: after ∧
      (∀ b ∈ before, ∃ c, f b = .ok c) ∧ f a = .error e := by
  induction l with
  | nil => simp [pure, Except.pure]
  | cons a l ih =>
    rw [List.mapM_cons, bind_eq_error]
    constructor
    · rintro (failed | ⟨c, ok, failed⟩)
      · exact ⟨[], a, l, rfl, by simp, failed⟩
      · rcases bind_eq_error.mp failed with failed | ⟨cs, -, h⟩
        · obtain ⟨before, b, after, rfl, oks, failed⟩ := ih.mp failed
          refine ⟨a :: before, b, after, rfl, ?_, failed⟩
          rw [List.forall_mem_cons]
          exact ⟨⟨c, ok⟩, oks⟩
        · cases h
    · rintro ⟨before, b, after, split, oks, failed⟩
      cases before with
      | nil =>
        obtain ⟨rfl, rfl⟩ := List.cons.inj split
        exact .inl failed
      | cons a' before =>
        obtain ⟨rfl, rfl⟩ := List.cons.inj split
        obtain ⟨⟨c, ok⟩, oks⟩ := List.forall_mem_cons.mp oks
        exact .inr ⟨c, ok, bind_eq_error.mpr (.inl (ih.mpr ⟨before, b, after, rfl, oks, failed⟩))⟩

/-! ### Failures -/

/-- A step fails for causes of one kind only. -/
def FailsOnly (P : ε → Prop) (x : Except ε α) : Prop := ∀ e, x = .error e → P e

namespace FailsOnly

variable {P Q : ε → Prop} {x : Except ε α} {e : ε}

protected theorem ok (a : α) : FailsOnly P (.ok a : Except ε α) := fun _ h => nomatch h

protected theorem error (h : P e) : FailsOnly P (.error e : Except ε α) := by
  intro e' he
  obtain rfl : e = e' := Except.error.inj he
  exact h

/-- After a step that succeeded. -/
theorem bind {f : α → Except ε β} (hx : FailsOnly P x)
    (hstep : ∀ a, x = .ok a → FailsOnly P (f a)) : FailsOnly P (x >>= f) := by
  intro e h
  cases x with
  | error e' =>
    cases h
    exact hx _ rfl
  | ok a => exact hstep a rfl e h

theorem map {f : α → β} (hx : FailsOnly P x) : FailsOnly P (f <$> x) := by
  intro e h
  cases x with
  | error e' =>
    cases h
    exact hx _ rfl
  | ok a => cases h

/-- For each member of a list. -/
theorem mapM {f : α → Except ε β} {l : List α} (h : ∀ a ∈ l, FailsOnly P (f a)) :
    FailsOnly P (l.mapM f) := by
  intro e he
  obtain ⟨before, a, after, rfl, -, failed⟩ := mapM_eq_error.mp he
  exact h a (by simp) e failed

theorem imp (hPQ : ∀ e, P e → Q e) (hx : FailsOnly P x) : FailsOnly Q x :=
  fun e h => hPQ e (hx e h)

/-- Where the causes are told in other words. -/
theorem mapError {δ : Type} {R : δ → Prop} {f : ε → δ} (hf : ∀ e, P e → R (f e))
    (hx : FailsOnly P x) : FailsOnly R (x.mapError f) := by
  intro d h
  cases x with
  | error e =>
    obtain rfl : f e = d := Except.error.inj h
    exact hf e (hx e rfl)
  | ok a => cases h

end FailsOnly

/-! ### Two outcomes side by side -/

/-- Two steps that give related values or fail both, for whatever causes. -/
inductive Matched (P : α → β → Prop) : Except ε α → Except ε β → Prop
  | ok {a : α} {b : β} (h : P a b) : Matched P (.ok a) (.ok b)
  | error (e e' : ε) : Matched P (.error e) (.error e')

namespace Matched

variable {α' β' : Type} {P : α → β → Prop} {Q : α' → β' → Prop} {x : Except ε α} {y : Except ε β}

protected theorem refl {R : α → α → Prop} (hR : ∀ a, R a a) (x : Except ε α) : Matched R x x := by
  cases x with
  | error e => exact .error e e
  | ok a => exact .ok (hR a)

theorem bind {f : α → Except ε α'} {g : β → Except ε β'}
    (hstep : ∀ a b, P a b → Matched Q (f a) (g b)) (h : Matched P x y) :
    Matched Q (x >>= f) (y >>= g) := by
  cases h with
  | ok h => exact hstep _ _ h
  | error e e' => exact .error e e'

/-- After steps that give the same value. -/
theorem bind_eq {x y : Except ε α} {f : α → Except ε α'} {g : α → Except ε β'}
    (h : Matched Eq x y) (hstep : ∀ a, Matched Q (f a) (g a)) : Matched Q (x >>= f) (y >>= g) := by
  cases h with
  | ok h => exact h ▸ hstep _
  | error e e' => exact .error e e'

/-- After the same step. -/
theorem bind_same (x : Except ε α) {f : α → Except ε α'} {g : α → Except ε β'}
    (hstep : ∀ a, Matched Q (f a) (g a)) : Matched Q (x >>= f) (x >>= g) :=
  bind_eq (.refl (fun _ => rfl) x) hstep

theorem map {f : α → α'} {g : β → β'} (hstep : ∀ a b, P a b → Q (f a) (g b))
    (h : Matched P x y) : Matched Q (x.map f) (y.map g) := by
  cases h with
  | ok h => exact .ok (hstep _ _ h)
  | error e e' => exact .error e e'

theorem ok_or_error (h : Matched P x y) :
    (∃ a b, x = .ok a ∧ y = .ok b ∧ P a b) ∨ ∃ e e', x = .error e ∧ y = .error e' := by
  cases h with
  | ok h => exact .inl ⟨_, _, rfl, rfl, h⟩
  | error e e' => exact .inr ⟨e, e', rfl, rfl⟩

end Matched

end Relmap.Outcome
