import Attestor.Chain.Header

/-! Scripts that only push data, and outputs that carry data after a return. A push is a
length below 76, or a marker and one, two or four length bytes, then the data; any of
them may be longer than needed when read, and the shortest is written. -/

namespace Attestor.Script

/-- The operation that marks an output as carrying data only. -/
def returnOp : UInt8 := 0x6a

/-- Data after a length in `width` bytes. -/
def readSized (width : Nat) (b : Bytes) : Option (Bytes × Bytes) :=
  if b.length < width then none
  else
    let n := Bytes.ofLittleEndian (b.take width)
    let (data, rest) := (b.drop width).splitAt n
    if data.length = n then some (data, rest) else none

/-- The data of the push at the front of a script, and the script after it; none if the
script starts with another operation or is cut short. -/
def readPush : Bytes → Option (Bytes × Bytes)
  | [] => none
  | op :: rest =>
    if op < 0x4c then
      let (data, rest) := rest.splitAt op.toNat
      if data.length = op.toNat then some (data, rest) else none
    else if op = 0x4c then readSized 1 rest
    else if op = 0x4d then readSized 2 rest
    else if op = 0x4e then readSized 4 rest
    else none

theorem readSized_length {width : Nat} {b data rest : Bytes}
    (h : readSized width b = some (data, rest)) : rest.length ≤ b.length := by
  unfold readSized at h
  split at h
  · simp at h
  · simp only [List.splitAt_eq] at h
    split at h
    · simp only [Option.some.injEq, Prod.mk.injEq] at h
      rw [← h.2]
      simp only [List.length_drop]
      omega
    · simp at h

theorem readPush_length {s data rest : Bytes} (h : readPush s = some (data, rest)) :
    rest.length < s.length := by
  match s with
  | [] => simp [readPush] at h
  | op :: tail =>
    simp only [readPush] at h
    split at h
    · simp only [List.splitAt_eq] at h
      split at h
      · simp only [Option.some.injEq, Prod.mk.injEq] at h
        rw [← h.2]
        simp only [List.length_drop, List.length_cons]
        omega
      · simp at h
    · have hle : rest.length ≤ tail.length := by
        split at h
        · exact readSized_length h
        · split at h
          · exact readSized_length h
          · split at h
            · exact readSized_length h
            · simp at h
      simp only [List.length_cons]
      omega

/-- The pushes of a script after those in `acc`, which is newest first. -/
def pushesOnto (acc : List Bytes) (s : Bytes) : Option (List Bytes) :=
  match s with
  | [] => some acc.reverse
  | op :: tail =>
    match _h : readPush (op :: tail) with
    | none => none
    | some (data, rest) => pushesOnto (data :: acc) rest
termination_by s.length
decreasing_by exact readPush_length _h

/-- The data of every push of a script that does nothing but push. -/
def pushes (s : Bytes) : Option (List Bytes) := pushesOnto [] s

/-- The script without an empty push at its front. -/
def dropEmptyPush (s : Bytes) : Bytes :=
  match readPush s with
  | some ([], rest) => rest
  | _ => s

/-- The pushes after the return of an output that carries data; an empty push may stand
before the return. -/
def returnPushes (s : Bytes) : Option (List Bytes) :=
  match dropEmptyPush s with
  | op :: rest => if op = returnOp then pushes rest else none
  | [] => none

/-- A push is refused only for data that no length can be written for. -/
inductive TooLarge where
  | push (length : Nat)
  deriving DecidableEq

/-- The shortest push of an item. -/
def push (item : Bytes) : Except TooLarge Bytes :=
  let n := item.length
  if n < 0x4c then .ok (UInt8.ofNat n :: item)
  else if n < UInt8.size then .ok (0x4c :: (Bytes.littleEndian 1 n ++ item))
  else if n < UInt16.size then .ok (0x4d :: (Bytes.littleEndian 2 n ++ item))
  else if n < UInt32.size then .ok (0x4e :: (Bytes.littleEndian 4 n ++ item))
  else .error (.push n)

/-- A script that pushes the items in order. -/
def ofPushes (items : List Bytes) : Except TooLarge Bytes := do
  pure (← items.mapM push).flatten

/-- An output script that carries the items: an empty push, the return, and the pushes. -/
def ofReturn (items : List Bytes) : Except TooLarge Bytes := do
  pure (0x00 :: returnOp :: (← ofPushes items))

end Attestor.Script
