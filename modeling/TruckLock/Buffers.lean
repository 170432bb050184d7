import Mathlib.Data.Option.Basic

/-!
# Buffers

The discipline of the buffers behind one pointer variable, read off the calls
that a program makes: the result of an allocation is stored in the variable,
and the buffer is read and freed through it. What goes wrong is `none`: a live
buffer is lost, or the variable is read or freed when it has no buffer.
-/
namespace Buffers

inductive Pointer where
  | null | live | freed
  deriving DecidableEq, Repr

/-- A call as the variable sees it. A null pointer may be released, but not freed; a restart gives
back everything. -/
inductive Use where
  | alloc (ok : Bool)
  | read
  | free
  | release
  | restart
  deriving DecidableEq, Repr

@[grind =] def Pointer.next : Pointer → Use → Option Pointer
  | _, .restart => some .null
  | .live, .alloc _ => none
  | _, .alloc ok => some (if ok then .live else .null)
  | .live, .read => some .live
  | _, .read => none
  | .live, .free => some .freed
  | _, .free => none
  | .live, .release => some .freed
  | .null, .release => some .null
  | .freed, .release => none

variable {ε : Type} {use : ε → Option Use}

/-- The variable after the events, newest first. -/
@[grind =] def pointer (use : ε → Option Use) : List ε → Option Pointer
  | [] => some .null
  | e :: l => match use e with
    | none => pointer use l
    | some u => (pointer use l).bind (·.next u)

/-- Nothing has gone wrong, and no buffer is held. -/
@[grind =] def Rests (p : Option Pointer) : Prop := p = some .null ∨ p = some .freed

instance (p : Option Pointer) : Decidable (Rests p) := inferInstanceAs (Decidable (_ ∨ _))

theorem Rests.sound {p : Option Pointer} (h : Rests p) : p ≠ none := by
  rcases h with rfl | rfl <;> simp

theorem Rests.not_live {p : Option Pointer} (h : Rests p) : p ≠ some .live := by
  rcases h with rfl | rfl <;> simp

variable {e : ε} {l : List ε}

theorem pointer_other (he : use e = none) : pointer use (e :: l) = pointer use l := by
  simp [pointer, he]

theorem pointer_none (h : pointer use l = none) : pointer use (e :: l) = none := by
  cases he : use e with
  | none => rw [pointer_other he, h]
  | some u => simp [pointer, he, h]

/-- A live buffer does not survive the next allocation. -/
theorem pointer_lost {ok : Bool} (he : use e = some (.alloc ok))
    (h : pointer use l = some .live ∨ pointer use l = none) : pointer use (e :: l) = none := by
  rcases h with h | h
  · simp [pointer, he, h, Pointer.next]
  · exact pointer_none h

theorem pointer_alloc {ok : Bool} (he : use e = some (.alloc ok)) (h : Rests (pointer use l)) :
    pointer use (e :: l) = some (if ok then .live else .null) := by
  rcases h with h | h <;> simp [pointer, he, h, Pointer.next]

theorem pointer_read (he : use e = some .read) (h : pointer use l = some .live) :
    pointer use (e :: l) = some .live := by
  simp [pointer, he, h, Pointer.next]

theorem pointer_free (he : use e = some .free) (h : pointer use l = some .live) :
    pointer use (e :: l) = some .freed := by
  simp [pointer, he, h, Pointer.next]

theorem pointer_release (he : use e = some .release) (h : pointer use l = some .live) :
    pointer use (e :: l) = some .freed := by
  simp [pointer, he, h, Pointer.next]

theorem pointer_release_null (he : use e = some .release) (h : pointer use l = some .null) :
    pointer use (e :: l) = some .null := by
  simp [pointer, he, h, Pointer.next]

end Buffers
