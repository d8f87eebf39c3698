import Strongroom.Disk.FileTree

/-! # Runs of scripts

A disk is what it may reply to each step, and what it becomes then. A script
runs on any disk; on the model of the disk it runs in one way, the one that
`Script.run` takes.
-/

namespace Strongroom

/-- A disk that replies to every step, in one of possibly many ways. -/
structure Disk (δ : Type) where
  replies : δ → (s : Step) → s.Reply → δ → Prop
  responds : ∀ (d : δ) (s : Step), ∃ reply d', replies d s reply d'

def FileTree.disk : Disk FileTree where
  replies tree s reply tree' := tree.perform s = (reply, tree')
  responds tree s := ⟨(tree.perform s).1, (tree.perform s).2, rfl⟩

namespace Script

/-- Where a script of scripts is cut does not matter. -/
instance : LawfulMonad Script :=
  LawfulMonad.mk' Script
    (fun script => by
      change script.bind (fun value => .done value) = script
      induction script with
      | done value => rfl
      | step s next ih => exact congrArg (Script.step s) (funext ih))
    (fun _ _ => rfl)
    (fun script first second => by
      change (script.bind first).bind second = script.bind fun value => (first value).bind second
      induction script with
      | done value => rfl
      | step s next ih => exact congrArg (Script.step s) (funext ih))

variable {δ α β : Type} (disk : Disk δ)

/-- A script that starts on one disk may end with a value on another. -/
inductive Runs : δ → Script α → α → δ → Prop where
  | done {d : δ} {value : α} : Runs d (.done value) value d
  | step {d d' d'' : δ} {s : Step} {reply : s.Reply} {next : s.Reply → Script α} {value : α} :
    disk.replies d s reply d' → Runs d' (next reply) value d'' → Runs d (.step s next) value d''

variable {disk}

theorem runs_done {d d' : δ} {value result : α} :
    Runs disk d (.done value) result d' ↔ result = value ∧ d' = d := by
  constructor
  · rintro ⟨⟩
    exact ⟨rfl, rfl⟩
  · rintro ⟨rfl, rfl⟩
    exact .done

@[simp] theorem runs_pure {d d' : δ} {value result : α} :
    Runs disk d (pure value) result d' ↔ result = value ∧ d' = d :=
  runs_done

theorem runs_step {d d'' : δ} {s : Step} {next : s.Reply → Script α} {value : α} :
    Runs disk d (.step s next) value d'' ↔
      ∃ reply d', disk.replies d s reply d' ∧ Runs disk d' (next reply) value d'' := by
  constructor
  · rintro (_ | ⟨replied, rest⟩)
    exact ⟨_, _, replied, rest⟩
  · rintro ⟨reply, d', replied, rest⟩
    exact .step replied rest

@[simp] theorem runs_bind {script : Script α} {next : α → Script β} {d d'' : δ} {result : β} :
    Runs disk d (script >>= next) result d'' ↔
      ∃ value d', Runs disk d script value d' ∧ Runs disk d' (next value) result d'' := by
  change Runs disk d (script.bind next) result d'' ↔ _
  induction script generalizing d with
  | done value =>
      simp only [Script.bind, runs_done]
      constructor
      · intro rest
        exact ⟨value, d, ⟨rfl, rfl⟩, rest⟩
      · rintro ⟨_, _, ⟨rfl, rfl⟩, rest⟩
        exact rest
  | step s more ih =>
      simp only [Script.bind, runs_step, ih]
      constructor
      · rintro ⟨reply, d₁, replied, value, d₂, first, rest⟩
        exact ⟨value, d₂, ⟨reply, d₁, replied, first⟩, rest⟩
      · rintro ⟨value, d₂, ⟨reply, d₁, replied, first⟩, rest⟩
        exact ⟨reply, d₁, replied, value, d₂, first, rest⟩

/-- Every script comes to an end. -/
theorem exists_runs (disk : Disk δ) (script : Script α) (d : δ) :
    ∃ value d', Runs disk d script value d' := by
  induction script generalizing d with
  | done value => exact ⟨value, d, .done⟩
  | step s next ih =>
      obtain ⟨reply, d₁, replied⟩ := disk.responds d s
      obtain ⟨value, d₂, rest⟩ := ih reply d₁
      exact ⟨value, d₂, .step replied rest⟩

/-- On the model of the disk a script runs in one way. -/
theorem runs_tree {script : Script α} {tree tree' : FileTree} {value : α} :
    Runs FileTree.disk tree script value tree' ↔ script.run tree = (value, tree') := by
  induction script generalizing tree with
  | done result =>
      rw [runs_done, run, Prod.mk.injEq, eq_comm, @eq_comm _ tree']
  | step s next ih =>
      rw [runs_step, run]
      constructor
      · rintro ⟨reply, tree₁, replied, rest⟩
        rw [show tree.perform s = (reply, tree₁) from replied]
        exact (ih _).1 rest
      · intro ran
        exact ⟨_, _, rfl, (ih _).2 ran⟩

theorem Runs.mono {disk' : Disk δ} {script : Script α} {value : α} {d d' : δ}
    (runs : Runs disk d script value d')
    (more : ∀ d s reply d', disk.replies d s reply d' → disk'.replies d s reply d') :
    Runs disk' d script value d' := by
  induction runs with
  | done => exact .done
  | step replied _ ih => exact .step (more _ _ _ _ replied) ih

/-- Every step that a script may still ask for is of one kind. -/
def Asks (kind : Step → Prop) : Script α → Prop
  | .done _ => True
  | .step s next => kind s ∧ ∀ reply, (next reply).Asks kind

theorem Asks.bind {kind : Step → Prop} {script : Script α} {next : α → Script β}
    (first : script.Asks kind) (rest : ∀ value, (next value).Asks kind) :
    (script >>= next).Asks kind := by
  change (script.bind next).Asks kind
  induction script with
  | done value => exact rest value
  | step s more ih => exact ⟨first.1, fun reply => ih reply (first.2 reply)⟩

/-- What every step of one kind keeps, a script of such steps keeps. -/
theorem Runs.keeps {kind : Step → Prop} {holds : δ → Prop} {script : Script α} {d d' : δ}
    {value : α} (runs : Runs disk d script value d') (asks : script.Asks kind)
    (keeps : ∀ d s reply d', kind s → disk.replies d s reply d' → holds d → holds d')
    (before : holds d) : holds d' := by
  induction runs with
  | done => exact before
  | step replied _ ih => exact ih (asks.2 _) (keeps _ _ _ _ asks.1 replied before)

end Script

end Strongroom
