import Querent.Result.Cursor

/-!
# Reasoning about actions

How an action runs, and triples for it: what holds before of the world holds
after of the answer and the world. Facts about an answer that hold in every
world (`Gives`) are a case of their own, since most of what a result or a cursor
keeps to itself needs nothing about the library.
-/

namespace Querent

variable {σ α β : Type}

/-! ## Running -/

section Running

variable {s : σ}

@[simp] theorem pure_apply (a : α) : (pure a : StateM σ α) s = (a, s) := rfl

@[simp] theorem bind_apply (act : StateM σ α) (f : α → StateM σ β) :
    (act >>= f) s = f (act s).1 (act s).2 := rfl

@[simp] theorem get_apply : (MonadState.get : StateM σ σ) s = (s, s) := rfl

@[simp] theorem call_apply (act : StateM σ α) (w : World σ) :
    call act w = ((act w.lib).1, { w with lib := (act w.lib).2 }) := rfl

end Running

/-! ## What an action gives in every world -/

/-- Whatever the world, the answer has the property. -/
def Gives (act : Action σ α) (φ : α → Prop) : Prop := ∀ w, φ (act w).1

namespace Gives

variable {act : Action σ α} {φ ψ : α → Prop}

theorem any : Gives act fun _ => True := fun _ => trivial

theorem pure {a : α} (h : φ a) : Gives (Pure.pure a : Action σ α) φ := fun _ => h

theorem bind {f : α → Action σ β} {χ : β → Prop} (ha : Gives act φ)
    (hf : ∀ a, φ a → Gives (f a) χ) : Gives (act >>= f) χ :=
  fun w => hf _ (ha w) _

/-- The first answer does not matter. -/
theorem bind_any {f : α → Action σ β} {χ : β → Prop} (hf : ∀ a, Gives (f a) χ) :
    Gives (act >>= f) χ :=
  fun _ => hf _ _

theorem imp (ha : Gives act φ) (h : ∀ a, φ a → ψ a) : Gives act ψ := fun w => h _ (ha w)

end Gives

end Querent
