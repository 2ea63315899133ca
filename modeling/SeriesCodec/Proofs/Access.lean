import SeriesCodec.Bytes

/-!
# Checked accesses

A machine walks over its buffers by position.  An access outside of them has no
result here, and neither has a difference below zero or a shift by the whole
word, so a walk that has a result made none of these.  A walk may also refuse
its input, and that is a result.
-/

namespace SeriesCodec

namespace Access

variable {α : Type}

def sub? (left right : Nat) : Option Nat :=
  if right ≤ left then some (left - right) else none

def slice? (bytes : Bytes) (start stop : Nat) : Option Bytes :=
  if start ≤ stop ∧ stop ≤ bytes.length then some ((bytes.drop start).take (stop - start))
  else none

def set? (cells : List α) (index : Nat) (value : α) : Option (List α) :=
  if index < cells.length then some (cells.set index value) else none

def copy? (target source : Bytes) : Option Bytes :=
  if target.length = source.length then some source else none

/-- The bits of a byte moved down, by less than the whole byte. -/
def shiftRight? (byte : UInt8) (places : Nat) : Option UInt8 :=
  if places < 8 then some (UInt8.ofNat (byte.toNat >>> places)) else none

def shiftLeft? (byte : UInt8) (places : Nat) : Option UInt8 :=
  if places < 8 then some (UInt8.ofNat (byte.toNat <<< places)) else none

theorem sub?_of_le {left right : Nat} (le : right ≤ left) :
    sub? left right = some (left - right) :=
  if_pos le

theorem slice?_of_le {bytes : Bytes} {start length : Nat}
    (inside : start + length ≤ bytes.length) :
    slice? bytes start (start + length) = some ((bytes.drop start).take length) := by
  rw [slice?, if_pos ⟨Nat.le_add_right _ _, inside⟩, Nat.add_sub_cancel_left]

theorem slice?_front {bytes : Bytes} {stop : Nat} (inside : stop ≤ bytes.length) :
    slice? bytes 0 stop = some (bytes.take stop) := by
  rw [slice?, if_pos ⟨Nat.zero_le _, inside⟩]
  rfl

theorem slice?_rest {bytes : Bytes} {start : Nat} (inside : start ≤ bytes.length) :
    slice? bytes start bytes.length = some (bytes.drop start) := by
  rw [slice?, if_pos ⟨inside, Nat.le_refl _⟩, ← List.length_drop, List.take_length]

theorem getElem?_behind (front back : List α) (value : α) :
    (front ++ value :: back)[front.length]? = some value := by
  rw [List.getElem?_append_right (Nat.le_refl _), Nat.sub_self]
  rfl

theorem set?_append (front back : List α) (old value : α) :
    set? (front ++ old :: back) front.length value = some (front ++ value :: back) := by
  have inside : front.length < (front ++ old :: back).length := by simp
  rw [set?, if_pos inside, List.set_append_right _ _ (Nat.le_refl _), Nat.sub_self,
    List.set_cons_zero]

theorem copy?_of_length_eq {target source : Bytes} (same : target.length = source.length) :
    copy? target source = some source :=
  if_pos same

end Access

/-- A computation by positions that may refuse its input. -/
abbrev Walk (ε α : Type) := ExceptT ε Option α

namespace Walk

variable {ε α β : Type}

def ofExcept (outcome : Except ε α) : Walk ε α := ExceptT.mk (some outcome)

def mapError {δ : Type} (change : ε → δ) (walk : Walk ε α) : Walk δ α :=
  ExceptT.adapt change walk

/-- Every access of the walk has a result, and the walk comes to the outcome. -/
def Follows (walk : Walk ε α) (outcome : Except ε α) : Prop := walk.run = some outcome

theorem follows_ofExcept (outcome : Except ε α) : Follows (ofExcept outcome) outcome := rfl

theorem follows_pure (value : α) : Follows (pure value : Walk ε α) (.ok value) := rfl

theorem follows_throw (reason : ε) : Follows (throw reason : Walk ε α) (.error reason) := rfl

/-- An access that has a result does not show. -/
theorem follows_access {found : Option α} {value : α} {next : α → Walk ε β}
    {outcome : Except ε β} (inside : found = some value) (rest : Follows (next value) outcome) :
    Follows ((found : Walk ε α) >>= next) outcome := by
  subst inside
  exact rest

theorem Follows.bind_ok {walk : Walk ε α} {value : α} {next : α → Walk ε β}
    {outcome : Except ε β} (first : Follows walk (.ok value))
    (rest : Follows (next value) outcome) : Follows (walk >>= next) outcome := by
  unfold Follows at first
  rw [Follows, ExceptT.run_bind, first]
  exact rest

theorem Follows.bind_error {walk : Walk ε α} {reason : ε} (first : Follows walk (.error reason))
    (next : α → Walk ε β) : Follows (walk >>= next) (.error reason) := by
  unfold Follows at first
  rw [Follows, ExceptT.run_bind, first]
  rfl

theorem Follows.bind {walk : Walk ε α} {outcome : Except ε α} {next : α → Walk ε β}
    {rest : α → Except ε β} (first : Follows walk outcome)
    (later : ∀ value, outcome = .ok value → Follows (next value) (rest value)) :
    Follows (walk >>= next) (outcome >>= rest) := by
  cases outcome with
  | error reason => exact first.bind_error next
  | ok value => exact first.bind_ok (later value rfl)

theorem Follows.mapError {δ : Type} {walk : Walk ε α} {outcome : Except ε α} (change : ε → δ)
    (walked : Follows walk outcome) : Follows (walk.mapError change) (outcome.mapError change) :=
  congrArg (Option.map (Except.mapError change)) walked

end Walk

end SeriesCodec
