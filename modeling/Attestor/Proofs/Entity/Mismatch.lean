import Attestor.Entity
import Mathlib

/-! The first fault of a claim about an entity, and what keeps a claim without fault. Every check
that can fail has its place: the details in front of the officers, each administrator, each
manager, and the details behind them. The fault that is found is that of the failing check with
the lowest place. Whether there is one depends on nothing but the texts and on which officers are
listed, so an entity backs itself, what is backed may be claimed of anything that backs it, and
a claim without fault stays one when less is claimed or more is registered. -/

namespace Attestor.Entity

/-! ### When a claim is backed

No detail of it is at odds with what is registered, and all of its officers are registered ones.
The first fault of a claim is looked for in a fixed order, but whether there is one does not
depend on that order. -/

/-- Everything that is claimed of an entity is registered of it. -/
structure Within (claimed registered : Entity) : Prop where
  leading : List.Forall₂ (fun c r => c = "" ∨ c = r) claimed.leading registered.leading
  administration : claimed.administration ⊆ registered.administration
  management : claimed.management ⊆ registered.management
  trailing : List.Forall₂ (fun c r => c = "" ∨ c = r) claimed.trailing registered.trailing

theorem mismatchedDetail?_eq_none_iff {labels sub full : List String}
    (hsub : labels.length = sub.length) (hfull : labels.length = full.length) :
    mismatchedDetail? labels sub full = none ↔
      List.Forall₂ (fun s f => s = "" ∨ s = f) sub full := by
  induction labels generalizing sub full with
  | nil =>
    rw [List.length_eq_zero_iff.1 hsub.symm, List.length_eq_zero_iff.1 hfull.symm]
    simp [mismatchedDetail?]
  | cons label labels ih =>
    obtain ⟨s, sub, rfl⟩ := List.exists_cons_of_length_eq_add_one hsub.symm
    obtain ⟨f, full, rfl⟩ := List.exists_cons_of_length_eq_add_one hfull.symm
    have ih := ih (Nat.succ.inj hsub) (Nat.succ.inj hfull)
    simp only [mismatchedDetail?, Option.map_eq_none_iff] at ih ⊢
    rw [List.zip_cons_cons, List.zip_cons_cons, List.forall₂_cons, ← ih, List.find?_cons]
    by_cases hbacked : s = "" ∨ s = f
    · have hpass : (s ≠ "" && s ≠ f) = false := by simpa using or_iff_not_imp_left.1 hbacked
      simp only [hpass, hbacked, true_and]
    · have hfault : (s ≠ "" && s ≠ f) = true := by simpa [not_or] using hbacked
      simp only [hfault, hbacked, false_and, reduceCtorEq]

theorem missingOfficer?_eq_none_iff {sub full : List Officer} :
    missingOfficer? sub full = none ↔ sub ⊆ full := by
  rw [missingOfficer?, List.findIdx?_eq_none_iff]
  simp only [decide_eq_false_iff_not, not_not]
  rfl

theorem mismatch?_eq_none_iff {claimed registered : Entity} :
    mismatch? claimed registered = none ↔ claimed.Within registered := by
  have hleading : mismatchedDetail? leadingLabels claimed.leading registered.leading = none ↔ _ :=
    mismatchedDetail?_eq_none_iff rfl rfl
  have htrailing :
      mismatchedDetail? trailingLabels claimed.trailing registered.trailing = none ↔ _ :=
    mismatchedDetail?_eq_none_iff rfl rfl
  rw [mismatch?]
  simp only [Option.orElse_eq_orElse, Option.orElse_eq_or, Option.or_eq_none_iff,
    Option.map_eq_none_iff, hleading, htrailing, missingOfficer?_eq_none_iff]
  exact ⟨fun ⟨hl, ha, hm, ht⟩ => ⟨hl, ha, hm, ht⟩, fun ⟨hl, ha, hm, ht⟩ => ⟨hl, ha, hm, ht⟩⟩

/-- The texts that an entity consists of. -/
inductive Detail where
  | name
  | kind
  | lei
  | unitNumber
  | buildingNumber
  | street
  | suburb
  | territory
  | country
  | postalCode
  | email
  | phone
  | domainName
  | paymail
  deriving DecidableEq

namespace Detail

def text (e : Entity) : Detail → String
  | name => e.name
  | kind => e.kind
  | lei => e.lei
  | unitNumber => e.unitNumber
  | buildingNumber => e.buildingNumber
  | street => e.street
  | suburb => e.suburb
  | territory => e.territory
  | country => e.country
  | postalCode => e.postalCode
  | email => e.email
  | phone => e.phone
  | domainName => e.domainName
  | paymail => e.paymail

def label : Detail → String
  | name => "Name"
  | kind => "Type"
  | lei => "LEI"
  | unitNumber => "UnitNumber"
  | buildingNumber => "BuildingNumber"
  | street => "Street"
  | suburb => "SuburbCity"
  | territory => "TerritoryStateProvinceCode"
  | country => "CountryCode"
  | postalCode => "PostalZIPCode"
  | email => "EmailAddress"
  | phone => "PhoneNumber"
  | domainName => "DomainName"
  | paymail => "PaymailHandle"

/-- The details in front of the lists of officers. -/
def leading : List Detail :=
  [name, kind, lei, unitNumber, buildingNumber, street, suburb, territory, country, postalCode,
    email, phone]

/-- The details behind the lists of officers. -/
def trailing : List Detail := [domainName, paymail]

theorem mem_leading_or_trailing (d : Detail) : d ∈ leading ∨ d ∈ trailing := by
  cases d <;> decide

end Detail

/-- Something that can be wrong with a claim. -/
inductive Check where
  | detail (d : Detail)
  | administrator (index : ℕ)
  | manager (index : ℕ)

namespace Check

variable {claimed registered : Entity}

/-- A detail is claimed and not the registered one, or an officer is claimed and is none of the
registered ones. -/
def Fails (claimed registered : Entity) : Check → Prop
  | detail d => d.text claimed ≠ "" ∧ d.text claimed ≠ d.text registered
  | administrator i => ∃ o, claimed.administration[i]? = some o ∧ o ∉ registered.administration
  | manager i => ∃ o, claimed.management[i]? = some o ∧ o ∉ registered.management

/-- How the failure of a check is told. -/
def fault : Check → Mismatch
  | detail d => .detail d.label
  | administrator i => .administrator i
  | manager i => .manager i

/-- The order of the checks: leading details, administrators, managers, other details. -/
def place : Check → ℕ ×ₗ ℕ
  | detail d =>
    if d ∈ Detail.leading then toLex (0, Detail.leading.idxOf d)
    else toLex (3, Detail.trailing.idxOf d)
  | administrator i => toLex (1, i)
  | manager i => toLex (2, i)

/-- Of the checks in `S` the one that comes before all others, if there is any. -/
inductive First (S : Check → Prop) : Option Check → Prop where
  | absent (h : ∀ c, ¬ S c) : First S none
  | found {c : Check} (hc : S c) (hfirst : ∀ d, S d → d ≠ c → c.place < d.place) :
      First S (some c)

variable {S S' : Check → Prop} {x y : Option Check}

theorem First.congr (h : First S x) (hS : ∀ c, S c ↔ S' c) : First S' x :=
  (funext fun c => propext (hS c) : S = S') ▸ h

/-- Checks that all come later need to be looked at only if none of the others is in question. -/
theorem First.orElse (hx : First S x) (hy : First S' y)
    (hlt : ∀ c d, S c → S' d → c.place < d.place) : First (fun c => S c ∨ S' c) (x <|> y) := by
  cases hx with
  | found hc hfirst =>
    exact .found (.inl hc) fun d hd hne => hd.elim (hfirst d · hne) (hlt _ d hc)
  | absent hS =>
    cases hy with
    | found hc hfirst =>
      exact .found (.inr hc) fun d hd => hfirst d (hd.resolve_left (hS d))
    | absent hS' => exact .absent fun c hc => hc.elim (hS c) (hS' c)

theorem First.eq_some_iff (h : First S x) {c : Check} :
    x = some c ↔ S c ∧ ∀ d, S d → d ≠ c → c.place < d.place := by
  cases h with
  | absent hS => exact ⟨nofun, fun hc => absurd hc.1 (hS c)⟩
  | @found b hb hfirst =>
    constructor
    · rintro ⟨⟩
      exact ⟨hb, hfirst⟩
    · rintro ⟨hc, hle⟩
      by_contra hne
      have hbc : b ≠ c := fun h => hne (congrArg some h)
      exact lt_asymm (hfirst c hc hbc.symm) (hle b hb hbc)

/-! ### One kind of checks -/

/-- The first of some details that is wrong. -/
def detail? (claimed registered : Entity) (ds : List Detail) : Option Check :=
  (ds.find? fun d => d.text claimed ≠ "" && d.text claimed ≠ d.text registered).map .detail

theorem mismatchedDetail?_map (claimed registered : Entity) (ds : List Detail) :
    (mismatchedDetail? (ds.map Detail.label) (ds.map (Detail.text claimed))
      (ds.map (Detail.text registered))).map Mismatch.detail =
        (detail? claimed registered ds).map fault := by
  simp only [mismatchedDetail?, detail?, List.zip_map', List.find?_map, Option.map_map]
  rfl

theorem first_detail {ds : List Detail}
    (hsorted : ds.Pairwise fun d e => (detail d).place < (detail e).place) :
    First (fun c => ∃ d ∈ ds, c = .detail d ∧ c.Fails claimed registered)
      (detail? claimed registered ds) := by
  have hfails : ∀ d : Detail, (d.text claimed ≠ "" && d.text claimed ≠ d.text registered) = true ↔
      (detail d).Fails claimed registered := by simp [Fails]
  rw [detail?]
  cases hfind : ds.find? _ with
  | none =>
    refine .absent ?_
    rintro - ⟨d, hd, rfl, hfail⟩
    exact List.find?_eq_none.1 hfind d hd ((hfails d).2 hfail)
  | some d =>
    obtain ⟨hd, before, after, rfl, hbefore⟩ := List.find?_eq_some_iff_append.1 hfind
    refine .found ⟨d, by simp, rfl, (hfails d).1 hd⟩ ?_
    rintro - ⟨e, he, rfl, hfail⟩ hne
    rcases List.mem_append.1 he with he | he
    · have hpass := hbefore e he
      rw [(hfails e).2 hfail] at hpass
      exact absurd hpass (by decide)
    · rcases List.mem_cons.1 he with rfl | he
      · exact absurd rfl hne
      · exact List.rel_of_pairwise_cons (List.pairwise_append.1 hsorted).2.1 he

theorem first_officer {sub full : List Officer} {make : ℕ → Check}
    (hmono : ∀ i j, i < j → (make i).place < (make j).place) :
    First (fun c => ∃ i o, c = make i ∧ sub[i]? = some o ∧ o ∉ full)
      ((missingOfficer? sub full).map make) := by
  cases hfind : missingOfficer? sub full with
  | none =>
    refine .absent ?_
    rintro - ⟨i, o, rfl, hi, hout⟩
    exact hout (missingOfficer?_eq_none_iff.1 hfind (List.mem_of_getElem? hi))
  | some i =>
    obtain ⟨hlt, hout, hbefore⟩ := List.findIdx?_eq_some_iff_getElem.1 hfind
    refine .found ⟨i, _, rfl, List.getElem?_eq_getElem hlt, by simpa using hout⟩ ?_
    rintro - ⟨j, o, rfl, hj, hmissing⟩ hne
    obtain ⟨_, hget⟩ := List.getElem?_eq_some_iff.1 hj
    rcases Nat.lt_trichotomy i j with hij | rfl | hji
    · exact hmono i j hij
    · exact absurd rfl hne
    · exact absurd (by rw [hget]; simpa using hmissing) (hbefore j hji)

/-! ### All checks -/

theorem place_of_leading {d : Detail} (hd : d ∈ Detail.leading) :
    (detail d).place = toLex (0, Detail.leading.idxOf d) := if_pos hd

theorem place_of_trailing {d : Detail} (hd : d ∈ Detail.trailing) :
    (detail d).place = toLex (3, Detail.trailing.idxOf d) := by
  refine if_neg fun hleading => ?_
  revert hd hleading
  cases d <;> decide

/-- A stage is done before the next one, whatever comes in it. -/
theorem toLex_lt_of_stage {stage i : ℕ} {later : ℕ × ℕ} (h : stage < later.1) :
    toLex (stage, i) < toLex later :=
  Prod.Lex.toLex_lt_toLex.2 (.inl h)

/-- The failing check that comes first. -/
def first? (claimed registered : Entity) : Option Check :=
  detail? claimed registered Detail.leading
    <|> (missingOfficer? claimed.administration registered.administration).map .administrator
    <|> (missingOfficer? claimed.management registered.management).map .manager
    <|> detail? claimed registered Detail.trailing

theorem mismatch?_eq (claimed registered : Entity) :
    mismatch? claimed registered = (first? claimed registered).map fault := by
  have hleading : (mismatchedDetail? leadingLabels claimed.leading registered.leading).map
      Mismatch.detail = _ := mismatchedDetail?_map claimed registered Detail.leading
  have htrailing : (mismatchedDetail? trailingLabels claimed.trailing registered.trailing).map
      Mismatch.detail = _ := mismatchedDetail?_map claimed registered Detail.trailing
  rw [mismatch?, hleading, htrailing, first?]
  simp only [Option.orElse_eq_orElse, Option.orElse_eq_or, Option.map_or, Option.map_map]
  rfl

theorem first_first? (claimed registered : Entity) :
    First (Fails claimed registered) (first? claimed registered) := by
  have hleading : Detail.leading.Pairwise fun d e => (detail d).place < (detail e).place := by
    decide
  have htrailing : Detail.trailing.Pairwise fun d e => (detail d).place < (detail e).place := by
    decide
  have hadministrator : ∀ i j, i < j → (administrator i).place < (administrator j).place :=
    fun i j h => Prod.Lex.toLex_lt_toLex.2 (.inr ⟨rfl, h⟩)
  have hmanager : ∀ i j, i < j → (manager i).place < (manager j).place :=
    fun i j h => Prod.Lex.toLex_lt_toLex.2 (.inr ⟨rfl, h⟩)
  refine ((first_detail hleading).orElse ((first_officer hadministrator).orElse
    ((first_officer hmanager).orElse (first_detail htrailing) ?_) ?_) ?_).congr ?_
  · rintro - - ⟨i, o, rfl, -⟩ ⟨d, hd, rfl, -⟩
    rw [place_of_trailing hd]
    exact toLex_lt_of_stage (show 2 < 3 by decide)
  · rintro - - ⟨i, o, rfl, -⟩ (⟨j, p, rfl, -⟩ | ⟨d, hd, rfl, -⟩)
    · exact toLex_lt_of_stage (show 1 < 2 by decide)
    · rw [place_of_trailing hd]
      exact toLex_lt_of_stage (show 1 < 3 by decide)
  · rintro - - ⟨c, hc, rfl, -⟩ (⟨j, p, rfl, -⟩ | ⟨j, p, rfl, -⟩ | ⟨d, hd, rfl, -⟩)
    · rw [place_of_leading hc]
      exact toLex_lt_of_stage (show 0 < 1 by decide)
    · rw [place_of_leading hc]
      exact toLex_lt_of_stage (show 0 < 2 by decide)
    · rw [place_of_leading hc, place_of_trailing hd]
      exact toLex_lt_of_stage (show 0 < 3 by decide)
  · intro c
    cases c with
    | detail d => rcases d.mem_leading_or_trailing with hd | hd <;> simp [hd]
    | administrator i => simp [Fails]
    | manager i => simp [Fails]

end Check

/-! ### Claims without fault -/

theorem within_iff {claimed registered : Entity} : claimed.Within registered ↔
    (∀ d : Detail, d.text claimed = "" ∨ d.text claimed = d.text registered) ∧
      (∀ o ∈ claimed.administration, o ∈ registered.administration) ∧
      ∀ o ∈ claimed.management, o ∈ registered.management := by
  have hmap (ds : List Detail) : List.Forall₂ (fun c r => c = "" ∨ c = r)
      (ds.map (Detail.text claimed)) (ds.map (Detail.text registered)) ↔
      ∀ d ∈ ds, d.text claimed = "" ∨ d.text claimed = d.text registered := by
    rw [List.forall₂_map_left_iff, List.forall₂_map_right_iff, List.forall₂_same]
  have hleading := hmap Detail.leading
  have htrailing := hmap Detail.trailing
  constructor
  · rintro ⟨hl, ha, hm, ht⟩
    exact ⟨fun d => d.mem_leading_or_trailing.elim (hleading.1 hl d) (htrailing.1 ht d), ha, hm⟩
  · rintro ⟨hd, ha, hm⟩
    exact ⟨hleading.2 fun d _ => hd d, ha, hm, htrailing.2 fun d _ => hd d⟩

theorem Within.refl (e : Entity) : e.Within e :=
  within_iff.2 ⟨fun _ => .inr rfl, fun _ ho => ho, fun _ ho => ho⟩

theorem Within.trans {e f g : Entity} (hef : e.Within f) (hfg : f.Within g) : e.Within g := by
  obtain ⟨hd, ha, hm⟩ := within_iff.1 hef
  obtain ⟨hd', ha', hm'⟩ := within_iff.1 hfg
  refine within_iff.2 ⟨fun d => ?_, fun o ho => ha' o (ha o ho), fun o ho => hm' o (hm o ho)⟩
  rcases hd d with hopen | hsame
  · exact .inl hopen
  · exact hsame ▸ hd' d

/-- Some details are left open and some officers left out, and nothing else is different. -/
structure Abridges (e full : Entity) : Prop where
  detail : ∀ d : Detail, d.text e = "" ∨ d.text e = d.text full
  administration : e.administration.Sublist full.administration
  management : e.management.Sublist full.management

theorem Abridges.within {e full : Entity} (h : e.Abridges full) : e.Within full :=
  within_iff.2 ⟨h.detail, fun _ ho => h.administration.subset ho,
    fun _ ho => h.management.subset ho⟩

/-- A claim has no fault if each of its texts is empty or the registered one and all of its
officers are registered; else its fault is that of the failing check that comes first. What is
claimed of an entity may be the entity itself, may be handed on, and may be abridged as what is
registered may be extended. -/
theorem mismatch?_first_fault (claimed registered : Entity) :
    (mismatch? claimed registered = none ↔
      (∀ d : Detail, d.text claimed = "" ∨ d.text claimed = d.text registered) ∧
        (∀ o ∈ claimed.administration, o ∈ registered.administration) ∧
        ∀ o ∈ claimed.management, o ∈ registered.management) ∧
    (∀ m, mismatch? claimed registered = some m ↔ ∃ c : Check, c.fault = m ∧
      c.Fails claimed registered ∧
        ∀ d : Check, d.Fails claimed registered → d ≠ c → c.place < d.place) ∧
    mismatch? claimed claimed = none ∧
    (mismatch? claimed registered = none → ∀ other, mismatch? registered other = none →
      mismatch? claimed other = none) ∧
    (mismatch? claimed registered = none → ∀ less more : Entity, less.Abridges claimed →
      registered.Abridges more → mismatch? less more = none) := by
  refine ⟨mismatch?_eq_none_iff.trans within_iff, fun m => ?_,
    mismatch?_eq_none_iff.2 (.refl claimed), fun h other hother => ?_,
    fun h less more hless hmore => ?_⟩
  · rw [Check.mismatch?_eq, Option.map_eq_some_iff]
    simp only [(Check.first_first? claimed registered).eq_some_iff]
    exact exists_congr fun c => and_comm
  · exact mismatch?_eq_none_iff.2
      ((mismatch?_eq_none_iff.1 h).trans (mismatch?_eq_none_iff.1 hother))
  · exact mismatch?_eq_none_iff.2
      ((hless.within.trans (mismatch?_eq_none_iff.1 h)).trans hmore.within)

end Attestor.Entity
