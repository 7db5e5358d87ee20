import Attestor.Proofs.Chain.Tree
import Attestor.Proofs.Node.Served
import Attestor.Proofs.Tracker.Handle

/-! A tracker that rebuilds its window from a node over the wire. The client hands on headers that
are linked, so the tracker never finds them malformed, whatever the node replied, and its window
ends at the height that the node reported. -/

namespace Attestor.Node.Client

open Json (Value Draft)
open Wire (Post Reply)

variable (c : Client) (replies : Replies)

/-- The tracker's questions, put to the node; `canceled` tells whether it may not go on. -/
def ofTracker (canceled : Bool) : (q : Tracker.Question) → Wire.Talk q.Answer
  | .canceled => .done canceled
  | .recent count => (c.recent count).run

/-- Runs a tracker against the replies of a node. -/
def execTracker {α : Type} (canceled : Bool)
    (d : Dialogue Tracker.Question Tracker.Question.Answer α) (sent : List Post) :
    Option α × List Post :=
  (d.via (c.ofTracker canceled)).run (fun p sent => (replies sent.length, sent ++ [p])) sent

theorem execTracker_rebuild_canceled (t : Tracker) (sent : List Post) :
    c.execTracker replies true t.rebuild sent =
      (some (t, .error (.canceled .recentHeaders)), sent) := by
  rw [Tracker.rebuild_eq_ask]
  rfl

theorem execTracker_rebuild {t : Tracker} {sent sent' : List Post} {r : Except Error HeaderBatch}
    (h : exec replies (c.recent t.offset) sent = (some r, sent')) :
    c.execTracker replies false t.rebuild sent = (t.rebuilt r, sent') := by
  rw [Tracker.rebuild_eq_ask]
  refine (Dialogue.run_bind _ (c.recent t.offset).run _ sent).trans ?_
  rw [exec] at h
  rw [h]
  cases hr : t.rebuilt r with
  | some result => simp only [hr]; rfl
  | none => simp only [hr]; rfl

/-- What told headers up to the node's newest block make of a window. -/
theorem ofBatch_of_told {first tip : UInt32} (hle : first ≤ tip) {hashes headers : Option Reply}
    {b : HeaderBatch} (hstart : b.start = first) (h : Told first tip hashes headers b.headers) :
    Window.ofBatch b = .ok ⟨b.ids, tip⟩ := by
  have hle := UInt32.le_iff_toNat_le.1 hle
  have hlen := h.length
  refine Window.ofBatch_eq_ok.2 ⟨h.run, rfl, .inr ⟨?_, ?_⟩⟩
  · exact List.ne_nil_of_length_eq_add_one hlen
  · rw [hstart, hlen]
    simp only
    omega

end Attestor.Node.Client

namespace Attestor.Tracker

open Node Node.Client

/-- The window is that of the node's newest blocks: as many as the tracker keeps, if the node has
so many, up to the height that the first reply reported, and linked as two later replies told. -/
structure RebuiltFrom (replies : Replies) (t t' : Tracker) (tip : UInt32) : Prop where
  reports : Reports (replies 0) tip
  offset : t'.offset = t.offset
  height : t'.window.height = tip
  size : t'.window.size = min t.offset (tip.toNat + 1)
  told : ∃ j < 3, ∃ found, Told (oldestHeight tip t.offset) tip (replies (2 * j + 1))
    (replies (2 * j + 2)) found ∧ t'.window.hashes = found.map Header.id

/-- What becomes of a tracker that rebuilds its window. It finds nothing malformed and fails
without a change, or it has the newest blocks of the node, as it has if the first three replies
tell them. -/
structure Rebuilds (replies : Replies) (t : Tracker) (canceled : Bool) (t' : Tracker)
    (r : Except Error Unit) : Prop where
  sound : ∀ artifact reason, r ≠ .error (.malformed artifact reason)
  unchanged : ∀ e, r = .error e → t' = t
  newest : r = .ok () → ∃ tip, RebuiltFrom replies t t' tip
  served : ∀ tip found, Reports (replies 0) tip →
    Told (oldestHeight tip t.offset) tip (replies 1) (replies 2) found →
      canceled = true ∨ r = .ok () ∧ t'.window = ⟨found.map Header.id, tip⟩

variable {replies : Replies} {t : Tracker} {tip : UInt32} {canceled : Bool}

theorem Rebuilds.of_error {e : Error} (hsound : ∀ artifact reason, e ≠ .malformed artifact reason)
    (hserved : ∀ tip found, Reports (replies 0) tip →
      Told (oldestHeight tip t.offset) tip (replies 1) (replies 2) found → canceled = true) :
    Rebuilds replies t canceled t (.error e) where
  sound artifact reason h := hsound artifact reason (Except.error.inj h)
  unchanged _ _ := rfl
  newest h := by cases h
  served tip found hreports htold := .inl (hserved tip found hreports htold)

/-- The window of the headers that one attempt told. -/
theorem rebuiltFrom_of_told {b : HeaderBatch} {j : ℕ} (hreports : Reports (replies 0) tip)
    (hj : j < 3) (htold : Told (oldestHeight tip t.offset) tip (replies (2 * j + 1))
      (replies (2 * j + 2)) b.headers) (hstart : b.start = oldestHeight tip t.offset) :
    t.rebuilt (.ok b) = some ({ t with window := ⟨b.ids, tip⟩ }, .ok ()) ∧
      RebuiltFrom replies t { t with window := ⟨b.ids, tip⟩ } tip := by
  have hsize : (⟨b.ids, tip⟩ : Window).size = min t.offset (tip.toNat + 1) := by
    have hpos := t.offset_pos
    rw [Window.size, HeaderBatch.ids, List.length_map, htold.length, toNat_oldestHeight]
    omega
  refine ⟨?_, hreports, rfl, rfl, hsize, j, hj, b.headers, htold, rfl⟩
  simp only [rebuilt, ofBatch_of_told (oldestHeight_le tip t.offset) hstart htold]
  rw [Window.trim_of_size_le (hsize ▸ min_le_left _ _)]

theorem exists_rebuilds (c : Client) (replies : Replies) (t : Tracker) (canceled : Bool) :
    ∃ t' r posts, c.execTracker replies canceled t.rebuild [] = (some (t', r), posts) ∧
      Rebuilds replies t canceled t' r := by
  cases canceled with
  | true =>
    exact ⟨t, _, [], execTracker_rebuild_canceled c replies t [],
      .of_error (by simp) fun _ _ _ _ => rfl⟩
  | false =>
    have hrecent : exec replies (c.recent t.offset) [] =
        exec replies (c.tip >>= fun tip => c.headers (oldestHeight tip t.offset) tip) [] := by
      rw [c.recent_eq t.offset_pos]
    rw [exec_bind, exec_tip] at hrecent
    cases htip : tipIn (replies ([] : List Wire.Post).length) with
    | error e =>
      rw [htip] at hrecent
      refine ⟨t, _, _, execTracker_rebuild c replies hrecent, .of_error (by simp) ?_⟩
      intro tip found hreports
      cases htip.symm.trans (tipIn_eq_ok.2 hreports)
    | ok tip =>
      rw [htip] at hrecent
      have hle := oldestHeight_le tip t.offset
      obtain ⟨r, posts, hcourse, hexec⟩ :=
        exists_course c replies hle attempts [c.callPost "getblockcount" []]
      have hrun := execTracker_rebuild c replies (hrecent.trans hexec)
      have hserved : ∀ tip' found, Reports (replies 0) tip' →
          Told (oldestHeight tip' t.offset) tip' (replies 1) (replies 2) found →
          tip' = tip ∧ r = .ok ⟨oldestHeight tip t.offset, found⟩ := by
        intro tip' found hreports htold
        cases htip.symm.trans (tipIn_eq_ok.2 hreports)
        exact ⟨rfl, (hcourse.eq_of_told hle htold).1⟩
      cases r with
      | error e =>
        refine ⟨t, _, _, hrun, .of_error (by simp) fun tip' found hreports htold => ?_⟩
        cases (hserved tip' found hreports htold).2
      | ok b =>
        obtain ⟨hstart, j, hj, -, htold⟩ := hcourse.told hle
        have htold : Told (oldestHeight tip t.offset) tip (replies (1 + 2 * j))
          (replies (1 + 2 * j + 1)) b.headers := htold
        rw [Nat.add_comm 1] at htold
        obtain ⟨hrebuilt, hnewest⟩ := rebuiltFrom_of_told (tipIn_eq_ok.1 htip) hj htold hstart
        refine ⟨_, _, _, hrun.trans (by rw [hrebuilt]), by simp, by simp, fun _ => ⟨tip, hnewest⟩,
          fun tip' found hreports htold => .inr ⟨rfl, ?_⟩⟩
        obtain ⟨rfl, hb⟩ := hserved tip' found hreports htold
        cases hb
        rfl

/-- Whatever a node replies, a range of headers is read in at most three attempts. What is read
was told in one of them, and what the first one tells is read. So a window that a tracker takes
from the node is never refused as unlinked, and is that of the node's newest blocks. -/
theorem headers_and_rebuild_told (c : Client) (replies : Replies) {first last : UInt32}
    (hle : first ≤ last) :
    (∃ r posts, exec replies (c.headers first last) [] = (some r, posts) ∧
      Asked c replies first last 0 posts ∧ posts.length ≤ 2 * 3 ∧
      (∀ b, r = .ok b → b.start = first ∧ ∃ j < 3, posts.length = 2 * j + 2 ∧
        Told first last (replies (2 * j)) (replies (2 * j + 1)) b.headers) ∧
      ∀ found, Told first last (replies 0) (replies 1) found →
        r = .ok ⟨first, found⟩ ∧ posts.length = 2) ∧
    ∀ (t : Tracker) (canceled : Bool), ∃ t' r posts,
      c.execTracker replies canceled t.rebuild [] = (some (t', r), posts) ∧
        Rebuilds replies t canceled t' r := by
  refine ⟨?_, exists_rebuilds c replies⟩
  obtain ⟨r, posts, hcourse, hexec⟩ := exists_course c replies hle 3 []
  refine ⟨r, posts, hexec, hcourse.asked.1, hcourse.asked.2, ?_, fun found htold =>
    hcourse.eq_of_told hle htold⟩
  rintro b rfl
  obtain ⟨hstart, j, hj, hlen, htold⟩ := hcourse.told hle
  have htold : Told first last (replies (0 + 2 * j)) (replies (0 + 2 * j + 1)) b.headers := htold
  rw [Nat.zero_add] at htold
  exact ⟨hstart, j, hj, hlen, htold⟩

/-! ### A node with two blocks -/

open BlockTree (genesis left)

def pairClient : Client := ⟨"node", none, none⟩

/-- Both batches are answered from the last call to the first. -/
def pairReplies : Replies
  | 0 => some (batchReply [(1, Digest.text left.id), (0, Digest.text genesis.id)])
  | 1 => some (batchReply [(1, Text.Hex.encode left.bytes), (0, Text.Hex.encode genesis.bytes)])
  | _ => none

theorem told_pair : Told 0 1 (pairReplies 0) (pairReplies 1) [genesis, left] :=
  told_batchReply rfl (List.isChain_pair.2 rfl) (.swap _ _ _) (.swap _ _ _)

/-- The same after a reply that reports the height of the newer block. -/
def pairRepliesAfterTip : Replies
  | 0 => some (tipReply 1)
  | n + 1 => pairReplies n

/-- The two headers are read in one attempt, and a tracker of two blocks holds them then. -/
theorem headers_and_rebuild_told_pair :
    (0 : UInt32) ≤ 1 ∧ (∃ posts, exec pairReplies (pairClient.headers 0 1) [] =
      (some (.ok ⟨0, [genesis, left]⟩), posts) ∧ posts.length = 2) ∧
    ∃ t' posts, pairClient.execTracker pairRepliesAfterTip false (new 2).rebuild [] =
      (some (t', .ok ()), posts) ∧ t'.window = ⟨[genesis.id, left.id], 1⟩ := by
  have hle : (0 : UInt32) ≤ 1 := by decide
  obtain ⟨⟨r, posts, hexec, -, -, -, hfirst⟩, -⟩ :=
    headers_and_rebuild_told pairClient pairReplies hle
  obtain ⟨rfl, hlen⟩ := hfirst _ told_pair
  obtain ⟨-, hrebuild⟩ := headers_and_rebuild_told pairClient pairRepliesAfterTip hle
  obtain ⟨t', r, posts', hexec', hrebuilds⟩ := hrebuild (new 2) false
  have holdest : oldestHeight 1 (new 2).offset = 0 := by decide
  obtain hcanceled | ⟨rfl, hwindow⟩ := hrebuilds.served 1 [genesis, left] (reports_tipReply 1)
    (holdest ▸ told_pair)
  · cases hcanceled
  · exact ⟨hle, ⟨posts, hexec, hlen⟩, t', posts', hexec', hwindow⟩

end Attestor.Tracker
