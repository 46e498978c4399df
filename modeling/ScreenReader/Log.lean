namespace ScreenReader

inductive Level where
  | trace
  | debug
  | info
  | warn
  deriving DecidableEq, Repr

def Level.name : Level → String
  | .trace => "trace"
  | .debug => "debug"
  | .info => "info"
  | .warn => "warn"

structure LogRecord where
  level : Level
  message : String
  deriving DecidableEq, Repr

/-- A value together with what was logged on the way to it, oldest record first. -/
@[ext]
structure Logged (α : Type) where
  value : α
  records : List LogRecord := []
  deriving Repr

namespace Logged

instance : Monad Logged where
  pure a := { value := a }
  bind x f := { value := (f x.value).value, records := x.records ++ (f x.value).records }

@[simp]
theorem value_pure {α : Type} (a : α) : (pure a : Logged α).value = a := rfl

@[simp]
theorem records_pure {α : Type} (a : α) : (pure a : Logged α).records = [] := rfl

@[simp]
theorem value_bind {α β : Type} (x : Logged α) (f : α → Logged β) :
    (x >>= f).value = (f x.value).value := rfl

@[simp]
theorem records_bind {α β : Type} (x : Logged α) (f : α → Logged β) :
    (x >>= f).records = x.records ++ (f x.value).records := rfl

@[simp]
theorem value_map {α β : Type} (f : α → β) (x : Logged α) : (f <$> x).value = f x.value := rfl

@[simp]
theorem records_map {α β : Type} (f : α → β) (x : Logged α) : (f <$> x).records = x.records :=
  List.append_nil x.records

theorem value_foldlM {α β : Type} (f : β → α → Logged β) (b : β) (as : List α) :
    (as.foldlM f b).value = as.foldl (fun b a => (f b a).value) b := by
  induction as generalizing b with
  | nil => rfl
  | cons a as ih => rw [List.foldlM_cons, value_bind, ih, List.foldl_cons]

instance : LawfulMonad Logged := LawfulMonad.mk' Logged
  (fun x => by
    ext1
    · rfl
    · exact List.append_nil x.records)
  (fun _ _ => rfl)
  (fun _ _ _ => by
    ext1
    · rfl
    · exact List.append_assoc ..)

end Logged

def log (level : Level) (message : String) : Logged Unit :=
  { value := (), records := [⟨level, message⟩] }

@[simp]
theorem value_log (level : Level) (message : String) : (log level message).value = () := rfl

@[simp]
theorem records_log (level : Level) (message : String) :
    (log level message).records = [⟨level, message⟩] := rfl

end ScreenReader
