import Attestor.Dialogue
import Attestor.Node.Client
import Attestor.Proofs.Node.Envelope
import Attestor.Proofs.Window.Apply

/-! Reading headers from a node that may reply anything. A range takes messages in pairs, one for
the hashes and one for the headers with these hashes, and no more pairs than there are attempts.
Headers come of a pair only if both replies answer every call, the headers have the hashes, and
each names the one before it as its parent, so a chain that changes between the two replies is
never taken for one. A pair of which all this holds gives the headers at once, and whatever else
is in the two replies does not matter. -/

namespace Attestor.Node.Client

open Json (Value Draft)
open Wire (Post Reply)

/-- What the messages to a node get back, one after another, whatever they ask for. There is
nothing if the connection fails. -/
abbrev Replies := ℕ → Option Reply

variable {α β : Type} (c : Client) (replies : Replies)

/-- Runs a part of a client; the messages are kept, oldest first. -/
def exec (action : Action α) (sent : List Post) : Option (Except Error α) × List Post :=
  action.run.run (fun p sent => (replies sent.length, sent ++ [p])) sent

section Steps

variable (sent : List Post)

theorem exec_bind (p : Action α) (f : α → Action β) : exec replies (p >>= f) sent =
    match exec replies p sent with
    | (some (.ok a), sent) => exec replies (f a) sent
    | (some (.error e), sent) => (some (.error e), sent)
    | (none, sent) => (none, sent) := by
  refine (Dialogue.run_bind_except _ p f sent).trans ?_
  unfold exec
  rcases p.run.run _ sent with ⟨_ | _ | a, sent⟩ <;> rfl

/-- What is made of a reply. -/
def receive (read : Draft → Except Json.Fault α) : Option Reply → Except Error α
  | none => .error (.http .request)
  | some reply => (Json.parse read reply.body).mapError fun _ => .http .decode

theorem exec_exchange (body : Value) (read : Draft → Except Json.Fault α) :
    exec replies (c.exchange body read) sent =
      (some (receive read (replies sent.length)), sent ++ [⟨c.url, c.authorization, body⟩]) := by
  have hsend : exec replies (liftM (Wire.send ⟨c.url, c.authorization, body⟩)) sent =
      (some (.ok (replies sent.length)), sent ++ [⟨c.url, c.authorization, body⟩]) := rfl
  rw [exchange, exec_bind, hsend]
  cases replies sent.length with
  | none => rfl
  | some reply =>
    simp only [receive]
    cases Json.parse read reply.body <;> rfl

theorem exec_bind_orFail {p : Action α} {r : Except Error α} {sent' : List Post}
    (hp : exec replies p sent = (some r, sent')) (f : α → Except Error β) :
    exec replies (p >>= fun a => orFail (f a)) sent = (some (r >>= f), sent') := by
  rw [exec_bind, hp]
  cases r <;> rfl

/-! ### Messages -/

def callPost (method : String) (params : List Value) : Post :=
  ⟨c.url, c.authorization, callBody (.text "identity-oracle") method params⟩

def batchPost (method : String) (params : List (List Value)) : Post :=
  ⟨c.url, c.authorization, .array (params.mapIdx fun i p => callBody (.ofNat i) method p)⟩

theorem exec_call (method : String) (params : List Value) (value : Draft → Except Json.Fault α) :
    exec replies (c.call method params value) sent =
      (some (receive (Envelope.ofDraft 0 value) (replies sent.length) >>= Envelope.outcome method),
        sent ++ [c.callPost method params]) :=
  exec_bind_orFail replies sent (c.exec_exchange replies sent _ _) _

theorem exec_batch (method : String) {params : List (List Value)} (hne : params ≠ [])
    (value : Draft → Except Json.Fault α) :
    exec replies (c.batch method params value) sent =
      (some (receive (Draft.asList (Envelope.ofDraft 1 value)) (replies sent.length) >>=
          Envelope.gather method params.length),
        sent ++ [c.batchPost method params]) := by
  have hempty : params.isEmpty = false := List.isEmpty_eq_false_iff.2 hne
  rw [batch, hempty]
  exact exec_bind_orFail replies sent (c.exec_exchange replies sent _ _) _

/-- The texts that a reply holds for so many calls, read one by one. -/
def collect (method : String) (count : ℕ) (read : String → Except Chain.Error β)
    (reply : Option Reply) : Except Error (List β) := do
  let raw ← receive (Draft.asList (Envelope.ofDraft 1 Draft.asText)) reply >>=
    Envelope.gather method count
  (raw.mapM read).mapError .chain

theorem exec_batch_orChain (method : String) {params : List (List Value)} (hne : params ≠ [])
    (read : String → Except Chain.Error β) :
    exec replies (c.batch method params Draft.asText >>= fun raw => orChain (raw.mapM read)) sent =
      (some (collect method params.length read (replies sent.length)),
        sent ++ [c.batchPost method params]) :=
  exec_bind_orFail replies sent (c.exec_batch replies sent method hne _) _

/-- Call `i` asks for the hash of the block that is `i` above the first one of the range. -/
def hashesPost (first last : UInt32) : Post :=
  ⟨c.url, c.authorization, .array ((List.range (last.toNat - first.toNat + 1)).map fun i =>
    callBody (.ofNat i) "getblockhash" [.ofNat (first.toNat + i)])⟩

/-- Call `i` asks for the header of the block with the `i`th hash. -/
def headersPost (ids : List Digest) : Post :=
  ⟨c.url, c.authorization, .array (ids.mapIdx fun i d =>
    callBody (.ofNat i) "getblockheader" [.text (Digest.text d), .bool false])⟩

/-- The hashes of a range as a reply tells them. -/
def hashesOf (first last : UInt32) (reply : Option Reply) : Except Error (List Digest) :=
  collect "getblockhash" (heights first last).length Digest.parse reply

def readHeader (s : String) : Except Chain.Error Header := ofHex s >>= Header.ofBytes

/-- The headers of so many blocks as a reply tells them. -/
def headersIn (count : ℕ) (reply : Option Reply) : Except Error (List Header) :=
  collect "getblockheader" count readHeader reply

variable {first last : UInt32}

theorem length_heights (hle : first ≤ last) :
    (heights first last).length = last.toNat - first.toNat + 1 := by
  have := UInt32.le_iff_toNat_le.1 hle
  rw [heights, List.length_range']
  omega

theorem heights_ne_nil (hle : first ≤ last) : heights first last ≠ [] :=
  List.ne_nil_of_length_eq_add_one (length_heights hle)

theorem batchPost_heights (hle : first ≤ last) :
    c.batchPost "getblockhash" ((heights first last).map fun h => [.ofNat h]) =
      c.hashesPost first last := by
  refine congrArg (fun calls => (⟨c.url, c.authorization, .array calls⟩ : Post))
    (List.ext_getElem ?_ fun i hi hi' => ?_)
  · rw [List.length_mapIdx, List.length_map, length_heights hle, List.length_map,
      List.length_range]
  · simp [heights]

theorem batchPost_ids (ids : List Digest) :
    c.batchPost "getblockheader" (ids.map fun d => [.text (Digest.text d), .bool false]) =
      c.headersPost ids :=
  congrArg (fun calls => (⟨c.url, c.authorization, .array calls⟩ : Post))
    (List.ext_getElem (by simp) (by simp))

theorem exec_hashesAt (hle : first ≤ last) : exec replies (c.hashesAt (heights first last)) sent =
    (some (hashesOf first last (replies sent.length)), sent ++ [c.hashesPost first last]) := by
  have hne : (heights first last).map (fun h => [Value.ofNat h]) ≠ [] :=
    List.map_eq_nil_iff.not.2 (heights_ne_nil hle)
  rw [hashesAt, exec_batch_orChain c replies sent _ hne, batchPost_heights c hle, List.length_map]
  rfl

theorem exec_headersOf {ids : List Digest} (hne : ids ≠ []) :
    exec replies (c.headersOf ids) sent =
      (some (headersIn ids.length (replies sent.length)), sent ++ [c.headersPost ids]) := by
  have hne : ids.map (fun d => [Value.text (Digest.text d), Value.bool false]) ≠ [] :=
    List.map_eq_nil_iff.not.2 hne
  refine (c.exec_batch_orChain replies sent "getblockheader" hne readHeader).trans ?_
  rw [batchPost_ids, List.length_map]
  rfl

end Steps

/-! ### What replies tell -/

/-- The reply holds for call `i` a text that reads as `x`. -/
def Tells (read : String → Except Chain.Error β) (reply : Option Reply) (i : ℕ) (x : β) : Prop :=
  ∃ es s, receive (Draft.asList (Envelope.ofDraft 1 Draft.asText)) reply = .ok es ∧
    Envelope.Answers es i s ∧ read s = .ok x

theorem collect_eq_ok {method : String} {count : ℕ} {read : String → Except Chain.Error β}
    {reply : Option Reply} {xs : List β} (hcount : 0 < count) :
    collect method count read reply = .ok xs ↔
      xs.length = count ∧ ∀ i x, xs[i]? = some x → Tells read reply i x := by
  simp only [collect, bind_eq_ok, mapError_eq_ok, Envelope.gather_eq_ok, mapM_eq_ok]
  constructor
  · rintro ⟨raw, ⟨es, hes, hlen, hraw⟩, hread⟩
    refine ⟨hread.length_eq.symm.trans hlen, fun i x hx => ?_⟩
    obtain ⟨hi, rfl⟩ := List.getElem?_eq_some_iff.1 hx
    have hi' : i < raw.length := hread.length_eq ▸ hi
    exact ⟨es, raw[i], hes, hraw i _ (List.getElem?_eq_getElem hi'), hread.get hi' hi⟩
  · rintro ⟨hlen, htells⟩
    have htell (i : Fin xs.length) : Tells read reply i xs[i] :=
      htells i _ (List.getElem?_eq_getElem i.isLt)
    obtain ⟨es, -, hes, -⟩ := htell ⟨0, hlen ▸ hcount⟩
    -- all calls are answered by the one list of envelopes in the reply
    have hanswer (i : Fin xs.length) : ∃ s, Envelope.Answers es i s ∧ read s = .ok xs[i] := by
      obtain ⟨es', s, hes', hs, hread⟩ := htell i
      cases hes.symm.trans hes'
      exact ⟨s, hs, hread⟩
    choose s hs hread using hanswer
    refine ⟨List.ofFn s, ⟨es, hes, List.length_ofFn.trans hlen, fun i a ha => ?_⟩,
      List.forall₂_iff_get.2 ⟨List.length_ofFn, fun i hi hi' => ?_⟩⟩
    · obtain ⟨hi, rfl⟩ := List.getElem?_eq_some_iff.1 ha
      rw [List.getElem_ofFn]
      exact hs ⟨i, _⟩
    · rw [List.get_eq_getElem, List.getElem_ofFn]
      exact hread _

theorem agrees_eq_true {ids : List Digest} {headers : List Header} :
    agrees ids headers = true ↔ headers.map Header.id = ids ∧ Header.Run headers := by
  rw [agrees, Bool.and_eq_true, decide_eq_true_iff, Option.isNone_iff_eq_none,
    Header.unlinked?_eq_none]

/-- The headers are a run over the range, and what two replies tell of it: the first one their
hashes, the second one the headers themselves. -/
structure Told (first last : UInt32) (hashes headers : Option Reply) (found : List Header) :
    Prop where
  length : found.length = last.toNat - first.toNat + 1
  run : Header.Run found
  hash : ∀ i h, found[i]? = some h → Tells Digest.parse hashes i h.id
  header : ∀ i h, found[i]? = some h → Tells readHeader headers i h

/-! ### Attempts -/

section Attempts

variable (first last : UInt32)

/-- What is said when no attempts are left. -/
def changing : Error :=
  .unavailable ("chain kept changing while reading heights " ++ toString first.toNat ++ "..=" ++
    toString last.toNat)

/-- How reading a range can go. With the replies from number `k` on, and so many attempts left,
it comes to a result after some messages. -/
inductive Course : (k attempts : ℕ) → Except Error HeaderBatch → List Post → Prop where
  | exhausted (k : ℕ) : Course k 0 (.error (changing first last)) []
  | noHashes {k n : ℕ} {e : Error} (hhashes : hashesOf first last (replies k) = .error e) :
      Course k (n + 1) (.error e) [c.hashesPost first last]
  | noHeaders {k n : ℕ} {ids : List Digest} {e : Error}
      (hhashes : hashesOf first last (replies k) = .ok ids)
      (hheaders : headersIn ids.length (replies (k + 1)) = .error e) :
      Course k (n + 1) (.error e) [c.hashesPost first last, c.headersPost ids]
  | agreed {k n : ℕ} {ids : List Digest} {headers : List Header}
      (hhashes : hashesOf first last (replies k) = .ok ids)
      (hheaders : headersIn ids.length (replies (k + 1)) = .ok headers)
      (hagrees : agrees ids headers = true) :
      Course k (n + 1) (.ok ⟨first, headers⟩) [c.hashesPost first last, c.headersPost ids]
  | changed {k n : ℕ} {ids : List Digest} {headers : List Header} {r : Except Error HeaderBatch}
      {posts : List Post} (hhashes : hashesOf first last (replies k) = .ok ids)
      (hheaders : headersIn ids.length (replies (k + 1)) = .ok headers)
      (hagrees : agrees ids headers = false) (hrest : Course (k + 2) n r posts) :
      Course k (n + 1) r (c.hashesPost first last :: c.headersPost ids :: posts)

variable {first last} {c replies}

theorem hashesOf_eq_ok (hle : first ≤ last) {reply : Option Reply} {ids : List Digest} :
    hashesOf first last reply = .ok ids ↔ ids.length = last.toNat - first.toNat + 1 ∧
      ∀ i d, ids[i]? = some d → Tells Digest.parse reply i d := by
  rw [hashesOf, collect_eq_ok (List.length_pos_of_ne_nil (heights_ne_nil hle)), length_heights hle]

/-- One attempt, and what follows it. -/
theorem exec_range_succ (hle : first ≤ last) (n : ℕ) (sent : List Post) :
    exec replies (c.range first last (n + 1)) sent =
      match hashesOf first last (replies sent.length) with
      | .error e => (some (.error e), sent ++ [c.hashesPost first last])
      | .ok ids =>
        match headersIn ids.length (replies (sent.length + 1)) with
        | .error e => (some (.error e), sent ++ [c.hashesPost first last, c.headersPost ids])
        | .ok headers =>
          if agrees ids headers then
            (some (.ok ⟨first, headers⟩), sent ++ [c.hashesPost first last, c.headersPost ids])
          else exec replies (c.range first last n)
            (sent ++ [c.hashesPost first last, c.headersPost ids]) := by
  rw [range, exec_bind, c.exec_hashesAt replies sent hle]
  cases hhashes : hashesOf first last (replies sent.length) with
  | error e => rfl
  | ok ids =>
    have hne : ids ≠ [] := List.ne_nil_of_length_eq_add_one ((hashesOf_eq_ok hle).1 hhashes).1
    simp only
    rw [exec_bind, c.exec_headersOf replies _ hne, List.length_append, List.append_assoc]
    simp only [List.length_singleton, List.singleton_append]
    cases headersIn ids.length (replies (sent.length + 1)) with
    | error e => rfl
    | ok headers =>
      simp only
      split_ifs <;> rfl

/-- Every run goes one of these ways. -/
theorem exists_course (c : Client) (replies : Replies) (hle : first ≤ last) (n : ℕ)
    (sent : List Post) :
    ∃ r posts, Course c replies first last sent.length n r posts ∧
      exec replies (c.range first last n) sent = (some r, sent ++ posts) := by
  induction n generalizing sent with
  | zero => exact ⟨_, [], .exhausted _, by rw [List.append_nil]; rfl⟩
  | succ n ih =>
    rw [exec_range_succ hle]
    cases hhashes : hashesOf first last (replies sent.length) with
    | error e => exact ⟨_, _, .noHashes hhashes, rfl⟩
    | ok ids =>
      simp only
      cases hheaders : headersIn ids.length (replies (sent.length + 1)) with
      | error e => exact ⟨_, _, .noHeaders hhashes hheaders, rfl⟩
      | ok headers =>
        simp only
        split_ifs with hagrees
        · exact ⟨_, _, .agreed hhashes hheaders hagrees, rfl⟩
        · obtain ⟨r, posts, hrest, hexec⟩ :=
            ih (sent ++ [c.hashesPost first last, c.headersPost ids])
          rw [List.length_append] at hrest
          refine ⟨r, _, .changed hhashes hheaders (eq_false_of_ne_true hagrees) hrest, ?_⟩
          rw [hexec, List.append_assoc]
          rfl

/-- What a successful reading gives is told by the two replies of one attempt. -/
theorem Course.told (hle : first ≤ last) {k n : ℕ} {b : HeaderBatch} {posts : List Post}
    (h : Course c replies first last k n (.ok b) posts) :
    b.start = first ∧ ∃ j < n, posts.length = 2 * j + 2 ∧
      Told first last (replies (k + 2 * j)) (replies (k + 2 * j + 1)) b.headers := by
  generalize hr : Except.ok b = r at h
  induction h with
  | exhausted | noHashes | noHeaders => cases hr
  | @agreed k n ids headers hhashes hheaders hagrees =>
    cases hr
    obtain ⟨rfl, hrun⟩ := agrees_eq_true.1 hagrees
    obtain ⟨hlen, hhash⟩ := (hashesOf_eq_ok hle).1 hhashes
    obtain ⟨hcount, hheader⟩ := (collect_eq_ok (by omega)).1 hheaders
    refine ⟨rfl, 0, n.succ_pos, rfl, hcount.trans hlen, hrun, fun i h hh => ?_, hheader⟩
    exact hhash i h.id (by rw [List.getElem?_map, hh]; rfl)
  | @changed k n ids headers r posts hhashes hheaders hagrees hrest ih =>
    obtain ⟨hstart, j, hj, hlen, htold⟩ := ih hr
    refine ⟨hstart, j + 1, Nat.succ_lt_succ hj, congrArg (· + 2) hlen, ?_⟩
    rwa [show k + 2 * (j + 1) = k + 2 + 2 * j by omega]

/-- What the first two replies tell is read in the first attempt. -/
theorem Course.eq_of_told (hle : first ≤ last) {k n : ℕ} {r : Except Error HeaderBatch}
    {posts : List Post} (h : Course c replies first last k (n + 1) r posts) {found : List Header}
    (htold : Told first last (replies k) (replies (k + 1)) found) :
    r = .ok ⟨first, found⟩ ∧ posts.length = 2 := by
  have hhashes : hashesOf first last (replies k) = .ok (found.map Header.id) := by
    refine (hashesOf_eq_ok hle).2 ⟨by rw [List.length_map, htold.length], fun i d hd => ?_⟩
    rw [List.getElem?_map, Option.map_eq_some_iff] at hd
    obtain ⟨h, hh, rfl⟩ := hd
    exact htold.hash i h hh
  have hheaders : headersIn (found.map Header.id).length (replies (k + 1)) = .ok found := by
    rw [List.length_map]
    refine (collect_eq_ok ?_).2 ⟨rfl, htold.header⟩
    rw [htold.length]
    exact Nat.succ_pos _
  have hagrees : agrees (found.map Header.id) found = true :=
    agrees_eq_true.2 ⟨rfl, htold.run⟩
  cases h with
  | noHashes hhashes' => cases hhashes.symm.trans hhashes'
  | noHeaders hhashes' hheaders' =>
    cases hhashes.symm.trans hhashes'
    cases hheaders.symm.trans hheaders'
  | agreed hhashes' hheaders' =>
    cases hhashes.symm.trans hhashes'
    cases hheaders.symm.trans hheaders'
    exact ⟨rfl, rfl⟩
  | changed hhashes' hheaders' hagrees' =>
    cases hhashes.symm.trans hhashes'
    cases hheaders.symm.trans hheaders'
    cases hagrees.symm.trans hagrees'

variable (c replies first last) in
/-- The messages of a reading: in turn, one that asks for the hashes of the range, and one that
asks for the headers of the blocks with the hashes that were told. -/
structure Asked (k : ℕ) (posts : List Post) : Prop where
  hashes : ∀ j, 2 * j < posts.length → posts[2 * j]? = some (c.hashesPost first last)
  headers : ∀ j, 2 * j + 1 < posts.length → ∃ ids,
    hashesOf first last (replies (k + 2 * j)) = .ok ids ∧
      posts[2 * j + 1]? = some (c.headersPost ids)

theorem Asked.singleton (k : ℕ) : Asked c replies first last k [c.hashesPost first last] where
  hashes j hj := by
    obtain rfl : j = 0 := by simpa using hj
    rfl
  headers j hj := by simp at hj

theorem Asked.cons {k : ℕ} {ids : List Digest} {posts : List Post}
    (hhashes : hashesOf first last (replies k) = .ok ids)
    (h : Asked c replies first last (k + 2) posts) :
    Asked c replies first last k (c.hashesPost first last :: c.headersPost ids :: posts) where
  hashes j hj := by
    cases j with
    | zero => rfl
    | succ j =>
      rw [List.length_cons, List.length_cons] at hj
      exact h.hashes j (by omega)
  headers j hj := by
    cases j with
    | zero => exact ⟨ids, hhashes, rfl⟩
    | succ j =>
      rw [List.length_cons, List.length_cons] at hj
      rw [show k + 2 * (j + 1) = k + 2 + 2 * j by omega]
      exact h.headers j (by omega)

theorem Course.asked {k n : ℕ} {r : Except Error HeaderBatch} {posts : List Post}
    (h : Course c replies first last k n r posts) :
    Asked c replies first last k posts ∧ posts.length ≤ 2 * n := by
  have hnil (k : ℕ) : Asked c replies first last k [] := ⟨nofun, nofun⟩
  induction h with
  | exhausted k => exact ⟨hnil k, le_rfl⟩
  | noHashes => exact ⟨.singleton _, by rw [List.length_singleton]; omega⟩
  | noHeaders hhashes => exact ⟨.cons hhashes (hnil _), Nat.le_mul_of_pos_right 2 (Nat.succ_pos _)⟩
  | agreed hhashes => exact ⟨.cons hhashes (hnil _), Nat.le_mul_of_pos_right 2 (Nat.succ_pos _)⟩
  | changed hhashes hheaders hagrees hrest ih =>
    exact ⟨.cons hhashes ih.1, Nat.add_le_add_right ih.2 2⟩

end Attempts

/-! ### The newest headers -/

/-- The reply reports the height of the node's newest block. -/
def Reports (reply : Option Reply) (tip : UInt32) : Prop :=
  ∃ e, receive (Envelope.ofDraft 0 Draft.asUInt32) reply = .ok e ∧ e.error = none ∧
    e.result = some tip

/-- The height in a reply. -/
def tipIn (reply : Option Reply) : Except Error UInt32 :=
  receive (Envelope.ofDraft 0 Draft.asUInt32) reply >>= Envelope.outcome "getblockcount"

theorem tipIn_eq_ok {reply : Option Reply} {tip : UInt32} :
    tipIn reply = .ok tip ↔ Reports reply tip := by
  simp only [tipIn, bind_eq_ok, Envelope.outcome_eq_ok, Reports]

/-- The height of the oldest of the newest blocks, so many if there are. -/
def oldestHeight (tip : UInt32) (count : ℕ) : UInt32 := .ofNat (tip.toNat - (count - 1))

theorem toNat_oldestHeight (tip : UInt32) (count : ℕ) :
    (oldestHeight tip count).toNat = tip.toNat - (count - 1) :=
  UInt32.toNat_ofNat_of_lt' ((Nat.sub_le _ _).trans_lt tip.toNat_lt_size)

theorem oldestHeight_le (tip : UInt32) (count : ℕ) : oldestHeight tip count ≤ tip := by
  rw [UInt32.le_iff_toNat_le, toNat_oldestHeight]
  exact Nat.sub_le _ _

theorem exec_tip (c : Client) (replies : Replies) (sent : List Post) : exec replies c.tip sent =
    (some (tipIn (replies sent.length)), sent ++ [c.callPost "getblockcount" []]) :=
  c.exec_call replies sent "getblockcount" [] Draft.asUInt32

theorem recent_eq (c : Client) {count : ℕ} (hcount : 0 < count) :
    c.recent count = c.tip >>= fun tip => c.headers (oldestHeight tip count) tip := by
  rw [recent, if_neg hcount.ne']
  rfl

end Attestor.Node.Client
