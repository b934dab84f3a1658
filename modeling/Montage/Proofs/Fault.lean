import Mathlib.Data.List.Forall2
import Montage.Number.Basic

/-!
Steps that may end in a fault.
-/

namespace Montage

section Steps

variable {α β : Type}

/-- A first step and what follows it give a value just when both do. -/
theorem bind_eq_ok {ε : Type} {x : Except ε α} {f : α → Except ε β} {b : β} :
    (x >>= f) = .ok b ↔ ∃ a, x = .ok a ∧ f a = .ok b := by
  cases x <;> simp [bind, Except.bind]

/-- A first step and what follows it fail where the one does, or the other after it. -/
theorem bind_eq_error {ε : Type} {x : Except ε α} {f : α → Except ε β} {e : ε} :
    (x >>= f) = .error e ↔ x = .error e ∨ ∃ a, x = .ok a ∧ f a = .error e := by
  cases x <;> simp [bind, Except.bind]

theorem exists_ok_iff {ε : Type} {x : Except ε α} :
    (∃ a, x = .ok a) ↔ ∀ e, ¬x = .error e := by
  cases x <;> simp

theorem exists_bind {x : Except Fault α} {f : α → Except Fault β} {a : α}
    (hx : x = .ok a) (hf : ∃ b, f a = .ok b) : ∃ b, (x >>= f) = .ok b := by
  rw [hx]
  exact hf

theorem exists_refuse {c : Prop} [Decidable c] {x : Except Fault Bool}
    (hx : ∃ b, x = .ok b) : ∃ b, (if c then pure false else x) = .ok b := by
  split
  · exact ⟨false, rfl⟩
  · exact hx

/-- What is refused under a condition is true only outside of it. -/
theorem refuse_eq_ok {c : Prop} [Decidable c] {x : Except Fault Bool} :
    (if c then pure false else x) = .ok true ↔ ¬c ∧ x = .ok true := by
  split
  · next h => simp [h, pure, Except.pure]
  · next h => simp [h]

theorem exists_of_map_eq_ok {ε : Type} {x : Except ε α} {f : α → β} {b : β}
    (h : x.map f = .ok b) : ∃ a, x = .ok a ∧ f a = b := by
  cases x with
  | error e => simp [Except.map] at h
  | ok a => exact ⟨a, rfl, Except.ok.inj h⟩

/-- What is seen of a value shows that there is one. -/
theorem exists_of_map_eq {x : Except Fault (Option α)} {f : α → β} {b : β}
    (h : x.map (Option.map f) = .ok (some b)) :
    ∃ a, x = .ok (some a) ∧ f a = b := by
  rcases x with e | _ | a
  · simp [Except.map] at h
  · simp [Except.map] at h
  · exact ⟨a, rfl, Option.some.inj (Except.ok.inj h)⟩

theorem eq_none_of_map_eq {x : Except Fault (Option α)}
    (h : x.map Option.isSome = .ok false) : x = .ok none := by
  rcases x with e | _ | a
  · simp [Except.map] at h
  · rfl
  · simp [Except.map] at h

/-- A failure is seen through what is made of a value. -/
theorem eq_error_of_map_eq {ε : Type} {x : Except ε α} {f : α → β} {e : ε}
    (h : x.map f = .error e) : x = .error e := by
  cases x with
  | error e' => exact congrArg _ (Except.error.inj h)
  | ok a => simp [Except.map] at h

theorem toOption_eq_some {x : Except Fault α} {a : α} :
    x.toOption = some a ↔ x = .ok a := by
  cases x <;> simp [Except.toOption]

theorem toOption_bind (x : Except Fault α) (f : α → Except Fault β) :
    (x >>= f).toOption = x.toOption.bind fun a => (f a).toOption := by
  cases x <;> rfl

/-- Where every step gives a value, all of them together do. -/
theorem exists_mapM {f : α → Except Fault β} {l : List α}
    (h : ∀ a ∈ l, ∃ b, f a = .ok b) : ∃ values, l.mapM f = .ok values := by
  induction l with
  | nil => exact ⟨[], rfl⟩
  | cons a rest ih =>
      obtain ⟨⟨b, hb⟩, hrest⟩ := List.forall_mem_cons.1 h
      obtain ⟨values, hvalues⟩ := ih hrest
      rw [List.mapM_cons]
      exact exists_bind hb (exists_bind hvalues ⟨_, rfl⟩)

theorem mapM_eq_ok {f : α → Except Fault β} {g : α → β} {l : List α}
    (h : ∀ a ∈ l, f a = .ok (g a)) : l.mapM f = .ok (l.map g) := by
  induction l with
  | nil => rfl
  | cons a rest ih =>
      obtain ⟨ha, hrest⟩ := List.forall_mem_cons.1 h
      rw [List.mapM_cons, ha, ih hrest]
      rfl

theorem exists_of_mapM {f : α → Except Fault β} {l : List α} {values : List β}
    (h : l.mapM f = .ok values) : ∀ a ∈ l, ∃ b, f a = .ok b := by
  induction l generalizing values with
  | nil => exact List.forall_mem_nil _
  | cons a rest ih =>
      simp only [List.mapM_cons, bind_eq_ok] at h
      obtain ⟨b, hb, later, hlater, -⟩ := h
      exact List.forall_mem_cons.2 ⟨⟨b, hb⟩, ih hlater⟩

/-- Going through a list as long as its elements let one on ends at the first that does not. -/
theorem ends_iff (Ends : List α → Prop) {Goes At : α → Prop} (hnil : ¬Ends [])
    (hcons : ∀ a rest, Ends (a :: rest) ↔ At a ∨ Goes a ∧ Ends rest) {l : List α} :
    Ends l ↔ ∃ before a after, l = before ++ a :: after ∧ (∀ b ∈ before, Goes b) ∧ At a := by
  constructor
  · intro h
    induction l with
    | nil => exact absurd h hnil
    | cons a rest ih =>
        rcases (hcons a rest).1 h with ha | ⟨ha, hrest⟩
        · exact ⟨[], a, rest, rfl, List.forall_mem_nil _, ha⟩
        · obtain ⟨before, c, after, rfl, hbefore, hc⟩ := ih hrest
          exact ⟨a :: before, c, after, rfl, List.forall_mem_cons.2 ⟨ha, hbefore⟩, hc⟩
  · rintro ⟨before, a, after, rfl, hbefore, ha⟩
    induction before with
    | nil => exact (hcons a after).2 (Or.inl ha)
    | cons b rest ih =>
        obtain ⟨hb, hrest⟩ := List.forall_mem_cons.1 hbefore
        exact (hcons b _).2 (Or.inr ⟨hb, ih hrest⟩)

/-- Of all steps together, the first that fails is the one that counts. -/
theorem mapM_eq_error {f : α → Except Fault β} {l : List α} {e : Fault} :
    l.mapM f = .error e ↔ ∃ before a after, l = before ++ a :: after ∧
      (∀ b ∈ before, ∃ v, f b = .ok v) ∧ f a = .error e := by
  refine ends_iff (fun l => l.mapM f = .error e) nofun ?_
  intro a rest
  rw [List.mapM_cons]
  rcases f a with g | b
  · simp [bind, Except.bind]
  · rcases rest.mapM f with g | values <;> simp [bind, Except.bind, pure, Except.pure]

theorem forall₂_of_mapM {f : α → Except Fault β} {l : List α} {values : List β}
    (h : l.mapM f = .ok values) : List.Forall₂ (fun a b => f a = .ok b) l values := by
  induction l generalizing values with
  | nil =>
      obtain rfl : [] = values := Except.ok.inj h
      exact .nil
  | cons a rest ih =>
      simp only [List.mapM_cons, bind_eq_ok] at h
      obtain ⟨b, hb, later, hlater, h⟩ := h
      obtain rfl : b :: later = values := Except.ok.inj h
      exact .cons hb (ih hlater)

end Steps

/-- A step gives a value with a property. -/
def Gives {α : Type} (P : α → Prop) (x : Except Fault α) : Prop := ∃ a, x = .ok a ∧ P a

namespace Gives

variable {α β : Type} {P : α → Prop} {Q : β → Prop} {x : Except Fault α}

theorem ok {a : α} (h : P a) : Gives P (.ok a) := ⟨a, rfl, h⟩

theorem bind {f : α → Except Fault β} (hx : Gives P x) (hf : ∀ a, P a → Gives Q (f a)) :
    Gives Q (x >>= f) := by
  obtain ⟨a, rfl, ha⟩ := hx
  exact hf a ha

theorem of_exists (h : ∃ a, x = .ok a) : Gives (fun _ => True) x := by
  obtain ⟨a, ha⟩ := h
  exact ⟨a, ha, trivial⟩

theorem exists_ok (h : Gives P x) : ∃ a, x = .ok a := by
  obtain ⟨a, ha, -⟩ := h
  exact ⟨a, ha⟩

/-- What every step of a fold keeps is there at its end. -/
theorem foldlM {f : β → α → Except Fault β} {l : List α} {b : β} (hb : Q b)
    (h : ∀ a ∈ l, ∀ b, Q b → Gives Q (f b a)) : Gives Q (l.foldlM f b) := by
  induction l generalizing b with
  | nil => exact ok hb
  | cons a rest ih =>
      obtain ⟨ha, hrest⟩ := List.forall_mem_cons.1 h
      rw [List.foldlM_cons]
      exact bind (ha b hb) fun b' hb' => ih hb' hrest

end Gives

/-- Whatever value a step gives has a property. -/
def Yields {ε α : Type} (P : α → Prop) (x : Except ε α) : Prop := ∀ a, x = .ok a → P a

namespace Yields

variable {ε α β : Type} {P : α → Prop} {Q : β → Prop} {x : Except ε α}

theorem ok {a : α} (h : P a) : Yields P (.ok a : Except ε α) := by
  intro b hb
  obtain rfl := Except.ok.inj hb
  exact h

theorem error (e : ε) : Yields P (.error e) := nofun

theorem any : Yields (fun _ => True) x := fun _ _ => trivial

theorem imp {R : α → Prop} (hx : Yields P x) (hPR : ∀ a, P a → R a) : Yields R x :=
  fun a ha => hPR a (hx a ha)

theorem ite {c : Prop} [Decidable c] {y : Except ε α} (hx : Yields P x) (hy : Yields P y) :
    Yields P (if c then x else y) := by
  split
  · exact hx
  · exact hy

theorem bind {f : α → Except ε β} (hx : Yields P x) (hf : ∀ a, P a → Yields Q (f a)) :
    Yields Q (x >>= f) := by
  intro b hb
  obtain ⟨a, ha, hb⟩ := bind_eq_ok.1 hb
  exact hf a (hx a ha) b hb

theorem mapM {f : α → Except ε β} {l : List α} (h : ∀ a ∈ l, Yields Q (f a)) :
    Yields (fun values => ∀ b ∈ values, Q b) (l.mapM f) := by
  induction l with
  | nil => exact ok (List.forall_mem_nil _)
  | cons a rest ih =>
      obtain ⟨ha, hrest⟩ := List.forall_mem_cons.1 h
      rw [List.mapM_cons]
      refine bind ha fun b hb => bind (ih hrest) fun later hlater => ?_
      exact ok (List.forall_mem_cons.2 ⟨hb, hlater⟩)

end Yields

/-- A step fails in no other way than with a property. -/
def FailsOnly {ε α : Type} (P : ε → Prop) (x : Except ε α) : Prop := ∀ e, x = .error e → P e

namespace FailsOnly

variable {ε α β : Type} {P : ε → Prop} {x : Except ε α}

theorem ok (a : α) : FailsOnly P (.ok a) := nofun

theorem error {e : ε} (h : P e) : FailsOnly P (.error e : Except ε α) := by
  intro e' he
  obtain rfl := Except.error.inj he
  exact h

/-- What follows a step has to be looked at for the values of the step alone. -/
theorem bindOk {f : α → Except ε β} (hx : FailsOnly P x)
    (hf : ∀ a, x = .ok a → FailsOnly P (f a)) : FailsOnly P (x >>= f) := by
  cases x with
  | error e =>
      intro e' he
      exact hx e' (congrArg _ (Except.error.inj he))
  | ok a => exact hf a rfl

theorem bind {f : α → Except ε β} (hx : FailsOnly P x) (hf : ∀ a, FailsOnly P (f a)) :
    FailsOnly P (x >>= f) :=
  bindOk hx fun a _ => hf a

theorem ite {c : Prop} [Decidable c] {y : Except ε α} (hx : FailsOnly P x)
    (hy : FailsOnly P y) : FailsOnly P (if c then x else y) := by
  split
  · exact hx
  · exact hy

theorem mapM {f : α → Except ε β} (hf : ∀ a, FailsOnly P (f a)) (l : List α) :
    FailsOnly P (l.mapM f) := by
  induction l with
  | nil => exact ok []
  | cons a rest ih =>
      rw [List.mapM_cons]
      exact bind (hf a) fun _ => bind ih fun _ => ok _

end FailsOnly

/-- Two steps fail in the same way, or give values that are related. -/
inductive Parallel {ε α β : Type} (R : α → β → Prop) : Except ε α → Except ε β → Prop
  | error (e : ε) : Parallel R (.error e) (.error e)
  | ok {a : α} {b : β} (h : R a b) : Parallel R (.ok a) (.ok b)

theorem Parallel.bind {ε α β γ : Type} {R : α → β → Prop} {x : Except ε γ}
    {f : γ → Except ε α} {g : γ → Except ε β} (h : ∀ c, x = .ok c → Parallel R (f c) (g c)) :
    Parallel R (x >>= f) (x >>= g) := by
  cases x with
  | error e => exact .error e
  | ok c => exact h c rfl

/-- The only fault is a number beyond the range of binary64. -/
def OnlyTooLarge {α : Type} (x : Except Fault α) : Prop :=
  ∀ f, x = .error f → f = .integerTooLarge

namespace OnlyTooLarge

variable {α β : Type}

theorem ok (a : α) : OnlyTooLarge (.ok a) := FailsOnly.ok a

theorem bind {x : Except Fault α} {f : α → Except Fault β}
    (hx : OnlyTooLarge x) (hf : ∀ a, OnlyTooLarge (f a)) :
    OnlyTooLarge (x >>= f) :=
  FailsOnly.bind hx hf

theorem ite {c : Prop} [Decidable c] {x y : Except Fault α}
    (hx : OnlyTooLarge x) (hy : OnlyTooLarge y) :
    OnlyTooLarge (if c then x else y) :=
  FailsOnly.ite hx hy

theorem mapM {f : α → Except Fault β} (hf : ∀ a, OnlyTooLarge (f a)) (l : List α) :
    OnlyTooLarge (l.mapM f) :=
  FailsOnly.mapM hf l

theorem eq_error_iff {x : Except Fault α} (hx : OnlyTooLarge x) {f : Fault} :
    x = .error f ↔ f = .integerTooLarge ∧ ¬∃ a, x = .ok a := by
  cases x with
  | ok a => simp
  | error g =>
      obtain rfl := hx g rfl
      simp [eq_comm]

theorem toBinary64 (a : Number) : OnlyTooLarge a.toBinary64 := by
  cases a with
  | float x => exact ok x
  | int n =>
      intro f h
      simp only [Number.toBinary64] at h
      split at h
      · exact (Except.error.inj h).symm
      · simp only [reduceCtorEq] at h

theorem zipFloat (op : Binary64 → Binary64 → Binary64) (a b : Number) :
    OnlyTooLarge (Number.zipFloat op a b) :=
  bind (toBinary64 a) fun _ => bind (toBinary64 b) fun _ => ok _

theorem add (a b : Number) : OnlyTooLarge (a.add b) := by
  cases a <;> cases b
  · exact ok _
  all_goals exact zipFloat Binary64.add _ _

theorem sub (a b : Number) : OnlyTooLarge (a.sub b) := by
  cases a <;> cases b
  · exact ok _
  all_goals exact zipFloat Binary64.sub _ _

theorem mul (a b : Number) : OnlyTooLarge (a.mul b) := by
  cases a <;> cases b
  · exact ok _
  all_goals exact zipFloat Binary64.mul _ _

end OnlyTooLarge

end Montage
