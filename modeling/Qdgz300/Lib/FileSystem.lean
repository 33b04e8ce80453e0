import Mathlib.Logic.Function.Basic
import Qdgz300.Lib.Bytes

/-!
# Files by path

A file system as a map from paths to contents, with the operations that a writer of files needs. For
each operation a lemma says what it does at the path it names, and one that it leaves the others.
-/

/-- The contents of the files; `none` where there is no file. -/
abbrev FileSystem (π : Type*) := π → Option (List Byte)

namespace FileSystem

section
variable {π : Type*} [DecidableEq π]

/-- Open `p` for writing and truncate it. -/
def create (fs : FileSystem π) (p : π) : FileSystem π := Function.update fs p (some [])

/-- Write at the end of `p`. -/
def append (fs : FileSystem π) (p : π) (bytes : List Byte) : FileSystem π :=
  Function.update fs p ((fs p).map (· ++ bytes))

/-- Delete `p`. -/
def remove (fs : FileSystem π) (p : π) : FileSystem π := Function.update fs p none

/-- Move `p` to `q`, in place of what is there. -/
def rename (fs : FileSystem π) (p q : π) : FileSystem π :=
  if p = q then fs else Function.update (Function.update fs q (fs p)) p none

variable {fs : FileSystem π} {p q r : π}

@[simp] theorem create_self : fs.create p p = some [] := Function.update_self ..

@[simp] theorem create_ne (h : q ≠ p) : fs.create p q = fs q := Function.update_of_ne h ..

theorem append_self {content : List Byte} (h : fs p = some content) (bytes : List Byte) :
    fs.append p bytes p = some (content ++ bytes) := by
  rw [append, Function.update_self, h, Option.map_some]

@[simp] theorem append_ne (h : q ≠ p) (bytes : List Byte) : fs.append p bytes q = fs q :=
  Function.update_of_ne h ..

@[simp] theorem remove_ne (h : q ≠ p) : fs.remove p q = fs q := Function.update_of_ne h ..

theorem rename_target (h : p ≠ q) : fs.rename p q q = fs p := by
  rw [rename, if_neg h, Function.update_of_ne h.symm, Function.update_self]

theorem rename_ne (hp : r ≠ p) (hq : r ≠ q) : fs.rename p q r = fs r := by
  unfold rename
  split
  · rfl
  · rw [Function.update_of_ne hp, Function.update_of_ne hq]

end

/-! ## Positions -/

section
variable {content bytes : List Byte} {off : Nat}

/-- Write at a position of a file; a gap before it reads as zeros, and no bytes leave the file as it
is. -/
def writeAt (content : List Byte) (off : Nat) (bytes : List Byte) : List Byte :=
  if bytes = [] then content
  else
    let padded := content ++ List.replicate (off - content.length) 0
    padded.take off ++ bytes ++ padded.drop (off + bytes.length)

/-- At the end of the file. -/
theorem writeAt_end : writeAt content content.length bytes = content ++ bytes := by
  unfold writeAt
  split
  · simp_all
  · simp

theorem length_writeAt_le (content : List Byte) (off : Nat) (bytes : List Byte) :
    (writeAt content off bytes).length ≤ max content.length (off + bytes.length) := by
  unfold writeAt
  split
  · exact Nat.le_max_left _ _
  · simp only [List.length_append, List.length_take, List.length_drop, List.length_replicate]
    omega

end

end FileSystem
