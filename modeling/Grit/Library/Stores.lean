import Mathlib.Logic.Function.Basic

/-!
# Maps of pointers, and files

A hash map whose values are pointers distinguishes an absent key (`none`) from a key that holds a
null pointer (`some none`). Reading through `operator[]` returns a null pointer for both, but it
also creates the key; `find` is the value that such a read returns and `touch` is its side effect
on the map.

The contents of files are kept by name, with the calls `open` and `write` on them. The outcome of a
call is a parameter. A descriptor that was opened for reading only refuses every write, as does the
descriptor of an `open` that failed.
-/

/-! ### Maps of pointers -/

/-- A map from keys to pointers, which may be null. -/
abbrev PtrMap (κ V : Type*) := κ → Option (Option V)

namespace PtrMap

variable {κ V : Type*} [DecidableEq κ]

/-- The empty map. -/
def empty : PtrMap κ V := fun _ => none

/-- The pointer that `m[k]` returns. -/
def find (m : PtrMap κ V) (k : κ) : Option V := (m k).join

/-- The map after `m[k]` has been read: an absent key is created as null. -/
def touch (m : PtrMap κ V) (k : κ) : PtrMap κ V :=
  match m k with
  | none => Function.update m k (some none)
  | some _ => m

/-- The map after `m[k] = v`. -/
def insert (m : PtrMap κ V) (k : κ) (v : V) : PtrMap κ V :=
  Function.update m k (some (some v))

/-- The map after `m.erase(k)`. -/
def erase (m : PtrMap κ V) (k : κ) : PtrMap κ V :=
  Function.update m k none

omit [DecidableEq κ] in
@[simp] theorem find_empty (k : κ) : (empty : PtrMap κ V).find k = none := rfl

omit [DecidableEq κ] in
theorem find_eq_some_iff (m : PtrMap κ V) (k : κ) (v : V) :
    m.find k = some v ↔ m k = some (some v) := by
  cases h : m k with
  | none => simp [find, h]
  | some o => simp [find, h]

@[simp] theorem find_insert_self (m : PtrMap κ V) (k : κ) (v : V) :
    (m.insert k v).find k = some v := by
  simp [find, insert]

theorem find_insert_of_ne (m : PtrMap κ V) {k k' : κ} (v : V) (h : k' ≠ k) :
    (m.insert k v).find k' = m.find k' := by
  simp [find, insert, h]

@[simp] theorem find_erase_self (m : PtrMap κ V) (k : κ) :
    (m.erase k).find k = none := by
  simp [find, erase]

theorem find_erase_of_ne (m : PtrMap κ V) {k k' : κ} (h : k' ≠ k) :
    (m.erase k).find k' = m.find k' := by
  simp [find, erase, h]

@[simp] theorem find_touch (m : PtrMap κ V) (k k' : κ) :
    (m.touch k).find k' = m.find k' := by
  unfold touch
  cases h : m k with
  | none =>
      by_cases hk : k' = k
      · subst hk
        simp [find, h]
      · simp [find, hk]
  | some o => rfl

theorem touch_of_ne (m : PtrMap κ V) {k k' : κ} (h : k' ≠ k) :
    m.touch k k' = m k' := by
  unfold touch
  cases m k with
  | none => exact Function.update_of_ne h _ _
  | some o => rfl

theorem find_insert (m : PtrMap κ V) (k k' : κ) (v : V) :
    (m.insert k v).find k' = if k' = k then some v else m.find k' := by
  by_cases h : k' = k
  · subst h
    simp
  · rw [find_insert_of_ne m v h, if_neg h]

theorem find_erase (m : PtrMap κ V) (k k' : κ) :
    (m.erase k).find k' = if k' = k then none else m.find k' := by
  by_cases h : k' = k
  · subst h
    simp
  · rw [find_erase_of_ne m h, if_neg h]

end PtrMap

/-! ### Files and descriptors -/

/-- The content of each file that exists. -/
abbrev Files := String → Option (List Char)

namespace Files

inductive Access where
  | readOnly
  | writeOnly
deriving DecidableEq, Repr

structure Descriptor where
  name : String
  access : Access
deriving DecidableEq, Repr

/-- A file is created empty if it does not exist. -/
def create (name : String) (fs : Files) : Files :=
  Function.update fs name (some ((fs name).getD []))

/-- `open(name, O_CREAT | access)`; a failure returns no descriptor. -/
def openFile (ok : Bool) (access : Access) (name : String) (fs : Files) :
    Files × Option Descriptor :=
  if ok then (fs.create name, some ⟨name, access⟩) else (fs, none)

/-- `write` appends to the file of a descriptor that was opened for writing. -/
def write (ok : Bool) (fd : Option Descriptor) (text : List Char) (fs : Files) : Files :=
  match fd with
  | none => fs
  | some fd =>
      match fd.access with
      | .readOnly => fs
      | .writeOnly =>
          if ok then Function.update fs fd.name ((fs fd.name).map fun content => content ++ text)
          else fs

/-- The descriptor refuses writes. -/
def Refuses (fd : Option Descriptor) : Prop := ∀ d, fd = some d → d.access = .readOnly

theorem refuses_openFile (ok : Bool) (name : String) (fs : Files) :
    Refuses (openFile ok .readOnly name fs).2 := by
  intro d hd
  cases ok with
  | false => simp [openFile] at hd
  | true =>
      obtain rfl := Option.some.inj hd
      rfl

theorem write_of_refuses {fd : Option Descriptor} (h : Refuses fd) (ok : Bool)
    (text : List Char) (fs : Files) : write ok fd text fs = fs := by
  cases fd with
  | none => rfl
  | some d => simp [write, h d rfl]

theorem openFile_self (ok : Bool) (access : Access) (name : String) (fs : Files) :
    (openFile ok access name fs).1 name =
      if ok then some ((fs name).getD []) else fs name := by
  cases ok with
  | false => rfl
  | true => simp [openFile, create]

end Files
