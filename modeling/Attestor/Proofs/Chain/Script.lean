import Attestor.Chain.Script
import Attestor.Proofs.Framing

/-! Scripts that only push data, told as a grammar. A push shows the length of its data, in
the operation itself or in the bytes after a marker, and need not take the shortest way to do
so. What the reader takes off the front of a script is one push, so a script that it reads to
the end is a row of pushes, and the pushes of an output that carries data are the row after its
return. The writer takes the shortest push of each item, as long as the length of the data can be
written. -/

namespace Attestor.Script

/-- The operations that are followed by the length of the data, and the width of the length. -/
def markers : List (UInt8 × ℕ) := [(0x4c, 1), (0x4d, 2), (0x4e, 4)]

/-- `IsPush data part`: the bytes `part` are a push of `data`. -/
inductive IsPush (data : Bytes) : Bytes → Prop where
  | direct (hlen : data.length < 0x4c) : IsPush data (UInt8.ofNat data.length :: data)
  | marked {marker : UInt8} {width : ℕ} (hmarker : (marker, width) ∈ markers)
      (hlen : data.length < 256 ^ width) :
      IsPush data (marker :: (Bytes.littleEndian width data.length ++ data))

/-- `IsPushes items script`: the script consists of a push of each item, in order. -/
def IsPushes (items : List Bytes) (script : Bytes) : Prop :=
  ∃ parts, List.Forall₂ IsPush items parts ∧ script = parts.flatten

/-- `IsReturn items script`: the script is a return and a push of each item, perhaps after an
empty push. -/
inductive IsReturn (items : List Bytes) : Bytes → Prop where
  | bare {row : Bytes} (hrow : IsPushes items row) : IsReturn items (returnOp :: row)
  | afterEmpty {front row : Bytes} (hfront : IsPush [] front) (hrow : IsPushes items row) :
      IsReturn items (front ++ returnOp :: row)

/-! ### A single push -/

theorem readSized_eq_some {width : ℕ} {b data rest : Bytes} :
    readSized width b = some (data, rest) ↔
      data.length < 256 ^ width ∧
        b = Bytes.littleEndian width data.length ++ (data ++ rest) := by
  constructor
  · intro h
    simp only [readSized, List.splitAt_eq, Option.ite_none_left_eq_some, not_lt,
      Option.ite_none_right_eq_some, Option.some.injEq, Prod.mk.injEq] at h
    obtain ⟨hwidth, hlen, hdata, hrest⟩ := h
    have htake : (b.take width).length = width := List.length_take_of_le hwidth
    have hnumber := Bytes.littleEndian_ofLittleEndian (b.take width)
    have hlt := Bytes.ofLittleEndian_lt (b.take width)
    rw [hdata] at hlen
    rw [htake, ← hlen] at hnumber hlt
    refine ⟨hlt, ?_⟩
    rw [hnumber, ← hrest, ← hdata, List.take_append_drop, List.take_append_drop]
  · rintro ⟨hlt, rfl⟩
    have hwidth := Bytes.length_littleEndian width data.length
    have hnumber := Bytes.ofLittleEndian_littleEndian width data.length
    rw [Nat.mod_eq_of_lt hlt] at hnumber
    rw [readSized, if_neg (by rw [List.length_append, hwidth]; omega),
      List.take_left' hwidth, List.drop_left' hwidth, hnumber]
    simp only [List.splitAt_eq, List.take_left' rfl, List.drop_left' rfl, if_true]

theorem readPush_marked {marker : UInt8} {width : ℕ} (hmarker : (marker, width) ∈ markers)
    (b : Bytes) : readPush (marker :: b) = readSized width b := by
  simp only [markers, List.mem_cons, Prod.mk.injEq, List.not_mem_nil, or_false] at hmarker
  rcases hmarker with ⟨rfl, rfl⟩ | ⟨rfl, rfl⟩ | ⟨rfl, rfl⟩ <;> rfl

theorem readPush_direct {op : UInt8} (hop : op < 0x4c) {b data rest : Bytes} :
    readPush (op :: b) = some (data, rest) ↔
      op.toNat = data.length ∧ b = data ++ rest := by
  simp only [readPush, if_pos hop, List.splitAt_eq, Option.ite_none_right_eq_some,
    Option.some.injEq, Prod.mk.injEq]
  constructor
  · rintro ⟨hlen, rfl, rfl⟩
    exact ⟨hlen.symm, (List.take_append_drop _ _).symm⟩
  · rintro ⟨hlen, rfl⟩
    rw [hlen, List.take_left' rfl, List.drop_left' rfl]
    exact ⟨rfl, rfl, rfl⟩

/-- An operation that starts a push holds a length or is a marker. -/
theorem op_of_readPush {op : UInt8} {b : Bytes} {found : Bytes × Bytes}
    (h : readPush (op :: b) = some found) : op < 0x4c ∨ ∃ width, (op, width) ∈ markers := by
  simp only [readPush] at h
  split_ifs at h with hop hlen h1 h2 h4
  · exact .inl hop
  · exact .inr ⟨1, by simp [markers, h1]⟩
  · exact .inr ⟨2, by simp [markers, h2]⟩
  · exact .inr ⟨4, by simp [markers, h4]⟩

theorem readPush_eq_some {s data rest : Bytes} :
    readPush s = some (data, rest) ↔ ∃ part, IsPush data part ∧ s = part ++ rest := by
  constructor
  · intro h
    cases s with
    | nil => exact absurd h (by simp [readPush])
    | cons op b =>
      rcases op_of_readPush h with hop | ⟨width, hmarker⟩
      · obtain ⟨hlen, rfl⟩ := (readPush_direct hop).1 h
        have hop' : op = UInt8.ofNat data.length := by rw [← hlen, UInt8.ofNat_toNat]
        refine ⟨op :: data, ?_, rfl⟩
        rw [hop']
        exact .direct (hlen ▸ UInt8.lt_iff_toNat_lt.1 hop)
      · rw [readPush_marked hmarker] at h
        obtain ⟨hlen, rfl⟩ := readSized_eq_some.1 h
        exact ⟨_, .marked hmarker hlen, by rw [List.cons_append, List.append_assoc]⟩
  · rintro ⟨part, hpart, rfl⟩
    cases hpart with
    | direct hlen =>
      have hop : (UInt8.ofNat data.length).toNat = data.length :=
        UInt8.toNat_ofNat_of_lt (hlen.trans (by decide))
      have hlt : UInt8.ofNat data.length < 0x4c := UInt8.lt_iff_toNat_lt.2 (hop.trans_lt hlen)
      exact (readPush_direct hlt).2 ⟨hop, rfl⟩
    | marked hmarker hlen =>
      rw [List.cons_append, readPush_marked hmarker]
      exact readSized_eq_some.2 ⟨hlen, List.append_assoc _ _ _⟩

theorem IsPush.ne_nil {data part : Bytes} (h : IsPush data part) : part ≠ [] := by
  cases h <;> exact List.cons_ne_nil _ _

/-- The operation of a return starts no push. -/
theorem readPush_returnOp (b : Bytes) : readPush (returnOp :: b) = none := rfl

/-! ### Rows of pushes -/

theorem pushesOnto_eq_some {acc items : List Bytes} {s : Bytes} :
    pushesOnto acc s = some items ↔ ∃ later, items = acc.reverse ++ later ∧ IsPushes later s := by
  fun_induction pushesOnto acc s with
  | case1 acc =>
    constructor
    · rintro ⟨⟩
      exact ⟨[], (List.append_nil _).symm, [], .nil, rfl⟩
    · rintro ⟨later, rfl, parts, hparts, hnil⟩
      cases hparts with
      | nil => rw [List.append_nil]
      | cons hpart _ =>
        exact absurd (List.append_eq_nil_iff.1 hnil.symm).1 hpart.ne_nil
  | case2 acc op tail hnone =>
    refine ⟨nofun, ?_⟩
    rintro ⟨later, rfl, parts, hparts, hs⟩
    cases hparts with
    | nil => exact absurd hs (List.cons_ne_nil _ _)
    | cons hpart _ =>
      rw [readPush_eq_some.2 ⟨_, hpart, hs⟩] at hnone
      exact absurd hnone (Option.some_ne_none _)
  | case3 acc op tail data rest hsome ih =>
    rw [ih]
    constructor
    · rintro ⟨later, rfl, parts, hparts, rfl⟩
      obtain ⟨part, hpart, hs⟩ := readPush_eq_some.1 hsome
      exact ⟨data :: later, by simp, part :: parts, .cons hpart hparts, hs⟩
    · rintro ⟨later, rfl, parts, hparts, hs⟩
      cases hparts with
      | nil => exact absurd hs (List.cons_ne_nil _ _)
      | @cons first part later parts hpart hparts =>
        rw [readPush_eq_some.2 ⟨_, hpart, hs⟩] at hsome
        obtain ⟨rfl, rfl⟩ := Prod.mk.inj (Option.some.inj hsome)
        exact ⟨later, by simp, parts, hparts, rfl⟩

theorem pushes_eq_some {items : List Bytes} {s : Bytes} :
    pushes s = some items ↔ IsPushes items s := by
  simp [pushes, pushesOnto_eq_some]

/-! ### Outputs that carry data -/

theorem dropEmptyPush_of_isPush {front rest : Bytes} (h : IsPush [] front) :
    dropEmptyPush (front ++ rest) = rest := by
  rw [dropEmptyPush, readPush_eq_some.2 ⟨front, h, rfl⟩]

/-- What is dropped is an empty push, or nothing. -/
theorem eq_or_eq_append_dropEmptyPush (s : Bytes) :
    s = dropEmptyPush s ∨ ∃ front, IsPush [] front ∧ s = front ++ dropEmptyPush s := by
  unfold dropEmptyPush
  split
  · rename_i rest h
    exact .inr (readPush_eq_some.1 h)
  · exact .inl rfl

theorem returnPushes_eq_some {items : List Bytes} {s : Bytes} :
    returnPushes s = some items ↔ IsReturn items s := by
  constructor
  · intro h
    unfold returnPushes at h
    split at h
    · rename_i op row hdrop
      split_ifs at h with hop
      have hrow := pushes_eq_some.1 h
      rcases eq_or_eq_append_dropEmptyPush s with hs | ⟨front, hfront, hs⟩
      · rw [hs, hdrop, hop]
        exact .bare hrow
      · rw [hs, hdrop, hop]
        exact .afterEmpty hfront hrow
    · exact absurd h (Option.some_ne_none _).symm
  · rintro (hrow | ⟨hfront, hrow⟩)
    · rw [returnPushes, dropEmptyPush, readPush_returnOp]
      exact (if_pos rfl).trans (pushes_eq_some.2 hrow)
    · rw [returnPushes, dropEmptyPush_of_isPush hfront]
      exact (if_pos rfl).trans (pushes_eq_some.2 hrow)

/-! ### The writer -/

/-- The push of the data that is shorter than every other. -/
def IsShortest (data part : Bytes) : Prop :=
  IsPush data part ∧ ∀ other, IsPush data other → other ≠ part → part.length < other.length

theorem isShortest_direct {data : Bytes} (hlen : data.length < 0x4c) :
    IsShortest data (UInt8.ofNat data.length :: data) := by
  refine ⟨.direct hlen, fun other hother hne => ?_⟩
  cases hother with
  | direct _ => exact absurd rfl hne
  | @marked marker width hmarker _ =>
    have hwidth : 0 < width := (by decide : ∀ entry ∈ markers, 0 < entry.2) _ hmarker
    simp only [List.length_cons, List.length_append, Bytes.length_littleEndian]
    omega

/-- A length that is too long for the operation itself and for every narrower width. -/
theorem isShortest_marked {data : Bytes} {marker : UInt8} {width : ℕ}
    (hmarker : (marker, width) ∈ markers) (hlen : data.length < 256 ^ width)
    (hdirect : 0x4c ≤ data.length)
    (hnarrow : ∀ entry ∈ markers, entry.2 < width → 256 ^ entry.2 ≤ data.length) :
    IsShortest data (marker :: (Bytes.littleEndian width data.length ++ data)) := by
  refine ⟨.marked hmarker hlen, fun other hother hne => ?_⟩
  cases hother with
  | direct hshort => exact absurd hshort (not_lt.2 hdirect)
  | @marked marker' width' hmarker' hlen' =>
    have hne' : width' ≠ width := by
      rintro rfl
      have hunique : ∀ e ∈ markers, ∀ e' ∈ markers, e.2 = e'.2 → e = e' := by decide
      cases hunique _ hmarker' _ hmarker rfl
      exact hne rfl
    have hle : width ≤ width' :=
      not_lt.1 fun hlt => absurd (hnarrow _ hmarker' hlt) (not_le.2 hlen')
    simp only [List.length_cons, List.length_append, Bytes.length_littleEndian]
    omega

theorem push_eq_ok {item : Bytes} (hitem : item.length < UInt32.size) :
    ∃ part, push item = .ok part ∧ IsShortest item part := by
  simp only [push]
  split_ifs with h0 h1 h2
  · exact ⟨_, rfl, isShortest_direct h0⟩
  · refine ⟨_, rfl, isShortest_marked (show (0x4c, 1) ∈ markers by decide) h1 (not_lt.1 h0) ?_⟩
    simp [markers]
  · refine ⟨_, rfl, isShortest_marked (show (0x4d, 2) ∈ markers by decide) h2 (not_lt.1 h0) ?_⟩
    have hone : 256 ^ 1 ≤ item.length := not_lt.1 h1
    simpa [markers] using hone
  · refine ⟨_, rfl, isShortest_marked (show (0x4e, 4) ∈ markers by decide) hitem (not_lt.1 h0) ?_⟩
    have hone : 256 ^ 1 ≤ item.length := not_lt.1 h1
    have htwo : 256 ^ 2 ≤ item.length := not_lt.1 h2
    simpa [markers] using ⟨hone, htwo⟩

theorem ofPushes_eq_ok {items : List Bytes} (hitems : ∀ item ∈ items, item.length < UInt32.size) :
    ∃ parts, ofPushes items = .ok parts.flatten ∧ List.Forall₂ IsShortest items parts := by
  suffices h : ∃ parts, items.mapM push = .ok parts ∧ List.Forall₂ IsShortest items parts by
    obtain ⟨parts, hparts, hshortest⟩ := h
    exact ⟨parts, by rw [ofPushes, hparts]; rfl, hshortest⟩
  induction items with
  | nil => exact ⟨[], rfl, .nil⟩
  | cons item items ih =>
    obtain ⟨hitem, hitems⟩ := List.forall_mem_cons.1 hitems
    obtain ⟨part, hpart, hshortest⟩ := push_eq_ok hitem
    obtain ⟨parts, hparts, hrest⟩ := ih hitems
    refine ⟨part :: parts, ?_, .cons hshortest hrest⟩
    rw [List.mapM_cons, hpart, hparts]
    rfl

theorem isPushes_of_shortest {items parts : List Bytes}
    (h : List.Forall₂ IsShortest items parts) : IsPushes items parts.flatten :=
  ⟨parts, h.imp fun _ _ hshortest => hshortest.1, rfl⟩

theorem isReturn_of_isPushes {items : List Bytes} {row : Bytes} (h : IsPushes items row) :
    IsReturn items (0x00 :: returnOp :: row) :=
  have hempty : IsPush [] [0x00] := .direct (by decide)
  .afterEmpty hempty h

/-- What is written to carry the items carries them. -/
theorem ofReturn_eq_ok {items : List Bytes} (hitems : ∀ item ∈ items, item.length < UInt32.size) :
    ∃ script, ofReturn items = .ok script ∧ IsReturn items script := by
  obtain ⟨parts, hrow, hshortest⟩ := ofPushes_eq_ok hitems
  exact ⟨_, by rw [ofReturn, hrow]; rfl, isReturn_of_isPushes (isPushes_of_shortest hshortest)⟩

/-- A script is read as items exactly when it is a row of pushes of them, and an output as the
items that it carries exactly when it is a return and such a row, perhaps after an empty push.
Items whose length can be written are written in the shortest of their pushes, and both scripts
are read back as the items. -/
theorem pushes_read_and_written (items : List Bytes) :
    (∀ script, pushes script = some items ↔ IsPushes items script) ∧
    (∀ script, returnPushes script = some items ↔ IsReturn items script) ∧
    ((∀ item ∈ items, item.length < 2 ^ 32) → ∃ parts,
      List.Forall₂ IsShortest items parts ∧
      ofPushes items = .ok parts.flatten ∧ pushes parts.flatten = some items ∧
      ofReturn items = .ok (0x00 :: returnOp :: parts.flatten) ∧
      returnPushes (0x00 :: returnOp :: parts.flatten) = some items) := by
  refine ⟨fun _ => pushes_eq_some, fun _ => returnPushes_eq_some, fun hitems => ?_⟩
  obtain ⟨parts, hrow, hshortest⟩ := ofPushes_eq_ok hitems
  have hpushes := isPushes_of_shortest hshortest
  exact ⟨parts, hshortest, hrow, pushes_eq_some.2 hpushes, by rw [ofReturn, hrow]; rfl,
    returnPushes_eq_some.2 (isReturn_of_isPushes hpushes)⟩

/-- Nothing at all, the longest item without a marker and the shortest with one. -/
def boundaryItems : List Bytes := [[], List.replicate 75 0x11, List.replicate 76 0x22]

theorem boundaryItems_read_and_written :
    (∀ item ∈ boundaryItems, item.length < 2 ^ 32) ∧ ∃ parts,
      List.Forall₂ IsShortest boundaryItems parts ∧
      ofPushes boundaryItems = .ok parts.flatten ∧ pushes parts.flatten = some boundaryItems ∧
      ofReturn boundaryItems = .ok (0x00 :: returnOp :: parts.flatten) ∧
      returnPushes (0x00 :: returnOp :: parts.flatten) = some boundaryItems := by
  have hitems : ∀ item ∈ boundaryItems, item.length < 2 ^ 32 := by decide
  exact ⟨hitems, (pushes_read_and_written boundaryItems).2.2 hitems⟩

end Attestor.Script
