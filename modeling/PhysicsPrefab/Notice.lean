/-!
# Notices

What a computation has to tell besides its result, in the order in which it came up.
-/

namespace PhysicsPrefab

/-- How important a notice is. -/
inductive Level where
  | debug
  | info
  | warn
  | error
deriving DecidableEq, Repr

/-- The name of a level. -/
def Level.name : Level → String
  | debug => "DEBUG"
  | info => "INFO"
  | warn => "WARN"
  | error => "ERROR"

/-- Whether a level is at least as important as another. -/
def Level.atLeast : Level → Level → Bool
  | _, debug => true
  | level, info => level != debug
  | level, warn => level == warn || level == error
  | level, error => level == error

/-- One thing that was told. -/
structure Notice where
  /-- Its importance. -/
  level : Level
  /-- Its words. -/
  text : String
deriving DecidableEq, Repr

/-- The line of a notice. -/
def Notice.line (notice : Notice) : String := s!"{notice.level.name} {notice.text}"

/-- A result with the notices that came up on the way. -/
structure Noted (α : Type) where
  /-- The notices in order. -/
  notices : List Notice
  /-- The result. -/
  value : α

namespace Noted

variable {α β : Type}

instance : Monad Noted where
  pure value := ⟨[], value⟩
  bind first next := ⟨first.notices ++ (next first.value).notices, (next first.value).value⟩

/-- Tell something. -/
def note (level : Level) (text : String) : Noted Unit := ⟨[⟨level, text⟩], ()⟩

@[simp] theorem value_pure (value : α) : (pure value : Noted α).value = value := rfl

@[simp] theorem value_bind (first : Noted α) (next : α → Noted β) :
    (first >>= next).value = (next first.value).value := rfl

@[simp] theorem notices_pure (value : α) : (pure value : Noted α).notices = [] := rfl

@[simp] theorem notices_bind (first : Noted α) (next : α → Noted β) :
    (first >>= next).notices = first.notices ++ (next first.value).notices := rfl

@[simp] theorem value_note (level : Level) (text : String) : (note level text).value = () := rfl

instance : LawfulMonad Noted :=
  LawfulMonad.mk' Noted
    (fun _ => by
      show Noted.mk _ _ = _
      simp)
    (fun _ _ => rfl)
    (fun _ _ _ => by
      show Noted.mk _ _ = Noted.mk _ _
      simp [bind, List.append_assoc])

section Failing

variable {ε : Type}

/-- What comes of two steps is what comes of the second, unless the first fails. -/
theorem value_run_bind (first : ExceptT ε Noted α) (next : α → ExceptT ε Noted β) :
    (first >>= next).run.value = first.run.value.bind fun value => (next value).run.value := by
  rw [ExceptT.run_bind, value_bind]
  cases first.run.value <;> rfl

/-- A step that tells something does not fail. -/
theorem value_run_liftNoted (noted : Noted α) :
    (liftM noted : ExceptT ε Noted α).run.value = .ok noted.value := rfl

/-- An answer that is there already is the outcome. -/
theorem value_run_liftExcept (answer : Except ε α) :
    (liftM answer : ExceptT ε Noted α).run.value = answer := by
  cases answer <;> rfl

end Failing

end Noted

end PhysicsPrefab
