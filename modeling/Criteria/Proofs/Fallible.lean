import Mathlib.Control.Monad.Basic

/-!
Steps which may fail. A chain of steps succeeds exactly when each of its steps
does, and it fails as its first failing step does. What is to be known of the result of
a chain and of its error follows from what is known of its steps. Two chains agree unless
the first one fails in an excused way when their steps do, one by one.
-/

namespace Except

universe u v

variable {ε : Type u} {α β : Type v}

@[simp] theorem pure_eq_ok (a : α) : (pure a : Except ε α) = .ok a := rfl

@[simp] theorem throw_eq_error (e : ε) : (throw e : Except ε α) = .error e := rfl

@[simp] theorem ok_bind (a : α) (f : α → Except ε β) : (Except.ok a >>= f) = f a := rfl

@[simp] theorem error_bind (e : ε) (f : α → Except ε β) :
    ((Except.error e : Except ε α) >>= f) = .error e := rfl

@[simp] theorem ok_map (a : α) (f : α → β) : (Except.ok a : Except ε α).map f = .ok (f a) := rfl

@[simp] theorem error_map (e : ε) (f : α → β) :
    (Except.error e : Except ε α).map f = .error e := rfl

theorem bind_eq_ok_iff {x : Except ε α} {f : α → Except ε β} {b : β} :
    (x >>= f) = .ok b ↔ ∃ a, x = .ok a ∧ f a = .ok b := by
  cases x with
  | error e => simp
  | ok a => simp

theorem bind_eq_error_iff {x : Except ε α} {f : α → Except ε β} {e : ε} :
    (x >>= f) = .error e ↔ x = .error e ∨ ∃ a, x = .ok a ∧ f a = .error e := by
  cases x with
  | error e' => simp
  | ok a => simp

theorem map_eq_ok_iff {x : Except ε α} {f : α → β} {b : β} :
    x.map f = .ok b ↔ ∃ a, x = .ok a ∧ f a = b := by
  cases x with
  | error e => simp
  | ok a => simp

theorem map_eq_error_iff {x : Except ε α} {f : α → β} {e : ε} :
    x.map f = .error e ↔ x = .error e := by
  cases x with
  | error e => simp
  | ok a => simp

section

variable {γ : Type*} {f : γ → Except ε α} {xs ys : List γ} {e : ε}

/-- Of the steps which `f` takes for the items in turn, the first one to fail fails with
this error. -/
def FirstError (f : γ → Except ε α) (items : List γ) (e : ε) : Prop :=
  ∃ before item after, items = before ++ item :: after ∧
    (∀ earlier ∈ before, ∃ a, f earlier = .ok a) ∧ f item = .error e

theorem firstError_singleton_iff {x : γ} : FirstError f [x] e ↔ f x = .error e := by
  constructor
  · rintro ⟨before, item, after, hsplit, -, hitem⟩
    cases before with
    | nil =>
        obtain ⟨rfl, -⟩ := List.cons.inj hsplit
        exact hitem
    | cons => simp at hsplit
  · intro h
    exact ⟨[], x, [], rfl, by simp, h⟩

theorem firstError_append_iff :
    FirstError f (xs ++ ys) e ↔
      FirstError f xs e ∨ (∀ x ∈ xs, ∃ a, f x = .ok a) ∧ FirstError f ys e := by
  constructor
  · rintro ⟨before, item, after, hsplit, hbefore, hitem⟩
    rcases List.append_eq_append_iff.mp hsplit with ⟨more, rfl, rfl⟩ | ⟨more, rfl, hmore⟩
    · obtain ⟨hxs, hmore⟩ := List.forall_mem_append.mp hbefore
      exact .inr ⟨hxs, more, item, after, rfl, hmore, hitem⟩
    · cases more with
      | nil => exact .inr ⟨by simpa using hbefore, [], item, after, hmore.symm, by simp, hitem⟩
      | cons x more =>
          obtain ⟨rfl, rfl⟩ := List.cons.inj hmore
          exact .inl ⟨before, item, more, rfl, hbefore, hitem⟩
  · rintro (⟨before, item, after, rfl, hbefore, hitem⟩ |
      ⟨hxs, before, item, after, rfl, hbefore, hitem⟩)
    · exact ⟨before, item, after ++ ys, by simp, hbefore, hitem⟩
    · exact ⟨xs ++ before, item, after, by simp, List.forall_mem_append.mpr ⟨hxs, hbefore⟩, hitem⟩

end

/-- A result is as `P` says, and an error as `Q` says. -/
def Meets (P : α → Prop) (Q : ε → Prop) : Except ε α → Prop
  | .ok a => P a
  | .error e => Q e

section

variable {P : α → Prop} {Q : ε → Prop} {R : β → Prop} {x : Except ε α}

theorem Meets.bind {f : α → Except ε β} (h : x.Meets P Q)
    (hrest : ∀ a, x = .ok a → P a → (f a).Meets R Q) : (x >>= f).Meets R Q := by
  cases x with
  | error e => exact h
  | ok a => exact hrest a rfl h

theorem Meets.map {f : α → β} (h : x.Meets P Q) (hf : ∀ a, P a → R (f a)) :
    (x.map f).Meets R Q := by
  cases x with
  | error e => exact h
  | ok a => exact hf a h

end

theorem exists_of_isOk {x : Except ε α} (h : x.isOk) : ∃ a, x = .ok a := by
  cases x with
  | error e => cases h
  | ok a => exact ⟨a, rfl⟩

/-- The second result is the first one, unless that is an error which is excused. -/
def AgreesUnless (excused : ε → Prop) (x y : Except ε α) : Prop :=
  (∃ e, x = .error e ∧ excused e) ∨ y = x

section

variable {excused : ε → Prop} {x y : Except ε α}

theorem AgreesUnless.refl (x : Except ε α) : AgreesUnless excused x x :=
  .inr rfl

theorem AgreesUnless.of_eq (h : y = x) : AgreesUnless excused x y :=
  .inr h

/-- The rest of two chains is compared after a first step that succeeds in both. -/
theorem AgreesUnless.bind {f g : α → Except ε β} (h : AgreesUnless excused x y)
    (hrest : ∀ a, x = .ok a → AgreesUnless excused (f a) (g a)) :
    AgreesUnless excused (x >>= f) (y >>= g) := by
  rcases h with ⟨e, rfl, he⟩ | rfl
  · exact .inl ⟨e, rfl, he⟩
  · cases y with
    | error e => exact .refl _
    | ok a => exact hrest a rfl

theorem AgreesUnless.map (f : α → β) (h : AgreesUnless excused x y) :
    AgreesUnless excused (x.map f) (y.map f) := by
  rcases h with ⟨e, rfl, he⟩ | rfl
  · exact .inl ⟨e, rfl, he⟩
  · exact .refl _

theorem AgreesUnless.eq_of_forall (h : AgreesUnless excused x y)
    (hx : ∀ e, x = .error e → ¬excused e) : y = x := by
  rcases h with ⟨e, he, hexcused⟩ | hsame
  · exact absurd hexcused (hx e he)
  · exact hsame

theorem AgreesUnless.eq_of_ok {a : α} (h : AgreesUnless excused x y) (hx : x = .ok a) :
    y = .ok a := by
  subst hx
  apply h.eq_of_forall
  intro e he
  cases he

end

end Except
