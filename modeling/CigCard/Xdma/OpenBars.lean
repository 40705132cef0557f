import CigCard.Xdma.OpenBooks

namespace CigCard.Xdma.Opening

open Ledger Unwinding

namespace Card

variable (card : Card)

def barLen (idx : Nat) : Int := (card.mapSingleBar idx).1

def candidate (idx : Nat) : Bool := decide (xdmaBarSize ≤ card.barLen idx) && card.isConfigBar idx

def configBar : Option Nat :=
  match card.configBarNum with
  | some num => if 0 < card.barLen num ∧ card.isConfigBar num = true then some num else none
  | none =>
    if ∀ idx ∈ List.range xdmaBarNum, 0 ≤ card.barLen idx then (List.range xdmaBarNum).find? card.candidate else none

def misnamedBar : Prop := ∃ num, card.configBarNum = some num ∧ 0 < card.barLen num ∧ card.isConfigBar num = false

end Card

section Bars

variable {card : Card} {others : List Resource} {start : Xdev}

theorem barLen_pos_iff (idx : Nat) : 0 < card.barLen idx ↔ (card.mapSingleBar idx).2.isSome = true := by
  unfold Card.barLen Card.mapSingleBar
  cases card.bars idx with
  | none => simp
  | some bar =>
    simp only [Xdma.mapSingleBar]
    split
    · simp
    · next long =>
      cases card.iomap idx with
      | none => simp
      | some base =>
        have positive : 0 < (if intMax < bar.len then intMax else bar.len).toNat := by
          split
          · decide
          · apply Nat.pos_of_ne_zero
            intro zero
            exact long (BitVec.eq_of_toNat_eq zero)
        simpa using positive

theorem unmapped_of_not_pos {idx : Nat} (short : ¬ 0 < card.barLen idx) : (card.mapSingleBar idx).2 = none := by
  rw [barLen_pos_iff] at short
  exact Option.not_isSome_iff_eq_none.mp short

structure BarsOnly (before after : Xdev) : Prop where
  irq : after.irq = before.irq
  engine : after.engine = before.engine
  channelMax : after.channelMax = before.channelMax
  gotRegions : after.gotRegions = before.gotRegions
  regionsInUse : after.regionsInUse = before.regionsInUse
  msixEnabled : after.msixEnabled = before.msixEnabled
  msiEnabled : after.msiEnabled = before.msiEnabled

theorem BarsOnly.refl (xdev : Xdev) : BarsOnly xdev xdev := ⟨rfl, rfl, rfl, rfl, rfl, rfl, rfl⟩

theorem BarsOnly.changed {xdev : Xdev} (only : BarsOnly start xdev) (held : Registry Resource Unit)
    (bar : Nat → Option Mapping) (configBarIdx userBarIdx bypassBarIdx : Option Nat) :
    BarsOnly start { xdev with held, bar, configBarIdx, userBarIdx, bypassBarIdx } :=
  ⟨only.irq, only.engine, only.channelMax, only.gotRegions, only.regionsInUse, only.msixEnabled, only.msiEnabled⟩

theorem BarsOnly.mapBar {xdev : Xdev} (only : BarsOnly start xdev) (card : Card) (idx : Nat) :
    BarsOnly start (mapBar card idx xdev) := by
  rw [mapBar_eq]
  exact only.changed _ _ _ _ _

structure MappingBars (others : List Resource) (front : List Nat) (start xdev : Xdev) : Prop where
  booked : Booked others xdev
  only : BarsOnly start xdev
  unmapped : ∀ idx, idx ∉ front → xdev.bar idx = none

theorem MappingBars.next {front : List Nat} {xdev : Xdev} (mapping : MappingBars others front start xdev) {idx : Nat}
    (fresh : idx ∉ front) : MappingBars others (front ++ [idx]) start (mapBar card idx xdev) := by
  refine ⟨mapping.booked.mapBar card (mapping.unmapped idx fresh), mapping.only.mapBar card idx, ?_⟩
  intro other away
  rw [List.mem_append, List.mem_singleton, not_or] at away
  rw [mapBar_eq]
  exact (if_neg away.2).trans (mapping.unmapped other away.1)

theorem identifyBars_touches (found : FoundBars) (xdev : Xdev) : ∃ userBarIdx bypassBarIdx,
    identifyBars found xdev = { xdev with userBarIdx, bypassBarIdx } := by
  unfold identifyBars
  split
  · split
    · exact ⟨_, _, rfl⟩
    · split
      · exact ⟨_, _, rfl⟩
      · exact ⟨_, _, rfl⟩
  · split
    · exact ⟨_, _, rfl⟩
    · exact ⟨_, _, rfl⟩
  · split
    · exact ⟨_, _, rfl⟩
    · exact ⟨_, _, rfl⟩
  · exact ⟨_, _, rfl⟩

structure Finding (card : Card) (others : List Resource) (start : Xdev) (front : List Nat) (xdev : Xdev) : Prop
    extends MappingBars others front start xdev where
  mappable : ∀ idx ∈ front, 0 ≤ card.barLen idx
  found : xdev.configBarIdx = front.find? card.candidate

structure NotFound (card : Card) (others : List Resource) (start xdev : Xdev) : Prop where
  missing : card.configBar = none
  booked : Booked others xdev
  only : BarsOnly start xdev
  outside : ∀ idx, xdmaBarNum ≤ idx → xdev.bar idx = none

theorem noteBar_meets {front : List Nat} {idx : Nat} (b : FoundBars) (long : 0 ≤ card.barLen idx) :
    Meets (noteBar card b idx)
      (fun xdev => MappingBars others (front ++ [idx]) start xdev ∧ (∀ i ∈ front, 0 ≤ card.barLen i) ∧
        xdev.configBarIdx = front.find? card.candidate)
      (fun _ xdev => Finding card others start (front ++ [idx]) xdev) (NotFound card others start) := by
  rintro xdev ⟨mapping, mappable, found⟩
  have all : ∀ i ∈ front ++ [idx], 0 ≤ card.barLen i := by
    intro i member
    rcases List.mem_append.mp member with member | member
    · exact mappable i member
    · rw [List.mem_singleton.mp member]
      exact long
  unfold noteBar
  rw [EStateM.run_bind, EStateM.run_get]
  dsimp only
  split_ifs with finds
  · obtain ⟨size, unset, isConfig⟩ := finds
    have candidate : card.candidate idx = true := by
      simp only [Card.candidate, Card.barLen, size, isConfig, decide_true, Bool.and_self]
    have next : some idx = (front ++ [idx]).find? card.candidate := by
      rw [List.find?_append, ← found, unset]
      simp [candidate]
    exact ⟨⟨mapping.booked, mapping.only.changed _ _ _ _ _, mapping.unmapped⟩, all, next⟩
  · have next : xdev.configBarIdx = (front ++ [idx]).find? card.candidate := by
      rw [List.find?_append, ← found]
      cases set : xdev.configBarIdx with
      | some c => rfl
      | none =>
        have other : card.candidate idx = false := by
          apply Bool.eq_false_of_not_eq_true
          intro candidate
          simp only [Card.candidate, Bool.and_eq_true, decide_eq_true_eq] at candidate
          exact finds ⟨candidate.1, set, candidate.2⟩
        simp [other]
    exact ⟨mapping, all, next⟩

theorem MappingBars.outside {front : List Nat} {xdev : Xdev} (mapping : MappingBars others front start xdev)
    (inside : ∀ idx ∈ front, idx < xdmaBarNum) : ∀ idx, xdmaBarNum ≤ idx → xdev.bar idx = none :=
  fun idx beyond => mapping.unmapped idx fun member => absurd (inside idx member) (Nat.not_lt.mpr beyond)

theorem mapNextBar_meets (configured : card.configBarNum = none) (front : List Nat) (idx : Nat) (rest : List Nat)
    (b : FoundBars) (whole : List.range xdmaBarNum = front ++ idx :: rest) :
    Meets (mapNextBar card b idx) (Finding card others start front)
      (fun _ => Finding card others start (front ++ [idx])) (NotFound card others start) := by
  have distinct : (front ++ idx :: rest).Nodup := whole ▸ List.nodup_range
  have fresh : idx ∉ front := fun member => (List.nodup_append.mp distinct).2.2 idx member idx List.mem_cons_self rfl
  have inRange : idx ∈ List.range xdmaBarNum := by simp [whole]
  have inside : ∀ i ∈ front ++ [idx], i < xdmaBarNum := by
    intro i member
    rcases List.mem_append.mp member with member | member
    · exact List.mem_range.mp (whole ▸ List.mem_append_left _ member)
    · rw [List.mem_singleton.mp member]
      exact List.mem_range.mp inRange
  unfold mapNextBar
  apply Meets.bind fun _ xdev => MappingBars others (front ++ [idx]) start xdev ∧ (∀ i ∈ front, 0 ≤ card.barLen i) ∧
    xdev.configBarIdx = front.find? card.candidate
  · apply Meets.modify
    intro xdev finding
    refine ⟨finding.toMappingBars.next fresh, finding.mappable, ?_⟩
    rw [mapBar_eq]
    exact finding.found
  · intro _
    apply Meets.ite
    · intro absent
      apply Meets.pure
      rintro xdev ⟨mapping, mappable, found⟩
      have other : card.candidate idx = false := by simp [Card.candidate, Card.barLen, absent, xdmaBarSize]
      refine ⟨mapping, ?_, ?_⟩
      · intro i member
        rcases List.mem_append.mp member with member | member
        · exact mappable i member
        · rw [List.mem_singleton.mp member, Card.barLen, absent]
      · rw [List.find?_append, ← found]
        simp [other]
    · intro present
      apply Meets.ite
      · intro refused
        apply Meets.throw
        rintro xdev ⟨mapping, -, -⟩
        have missing : card.configBar = none := by
          unfold Card.configBar
          rw [configured]
          apply if_neg
          intro all
          have long := all idx inRange
          unfold Card.barLen at long
          omega
        exact ⟨missing, mapping.booked, mapping.only, mapping.outside inside⟩
      · intro granted
        exact noteBar_meets b (Int.not_lt.mp granted)

structure BarsMapped (card : Card) (others : List Resource) (start xdev : Xdev) : Prop where
  found : ∃ configBarIdx, card.configBar = some configBarIdx ∧ xdev.configBarIdx = some configBarIdx
  booked : Booked others xdev
  only : BarsOnly start xdev
  outside : ∀ idx, xdmaBarNum ≤ idx → xdev.bar idx = none

/-- No configuration BAR, and a BAR is left mapped exactly if the module was built with the wrong number. -/
structure BarsFailed (card : Card) (others : List Resource) (start xdev : Xdev) : Prop where
  missing : card.configBar = none
  booked : Booked others xdev
  only : BarsOnly start xdev
  left : (∀ idx, xdev.bar idx = none) ↔ ¬ card.misnamedBar

theorem NotFound.unmapBars {xdev : Xdev} (configured : card.configBarNum = none)
    (notFound : NotFound card others start xdev) : BarsFailed card others start (unmapBars xdev) := by
  obtain ⟨held, unmapped, booked⟩ := unmapBars_upto xdmaBarNum notFound.booked
  change Opening.unmapBars xdev = _ at unmapped
  refine ⟨notFound.missing, booked, ?_, ?_⟩
  · rw [unmapped]
    exact notFound.only.changed _ _ _ _ _
  · have named : ¬ card.misnamedBar := by
      rintro ⟨num, some, -⟩
      rw [configured] at some
      cases some
    have none : ∀ idx, (Opening.unmapBars xdev).bar idx = none := by
      intro idx
      rw [unmapped]
      by_cases inside : idx < xdmaBarNum
      · exact if_pos inside
      · exact (if_neg inside).trans (notFound.outside idx (Nat.not_lt.mp inside))
    exact iff_of_true none named

theorem requireConfigBar_meets (configured : card.configBarNum = none) :
    Meets requireConfigBar (Finding card others start (List.range xdmaBarNum)) (fun _ => BarsMapped card others start)
      (NotFound card others start) := by
  intro xdev finding
  have outside : ∀ idx, xdmaBarNum ≤ idx → xdev.bar idx = none :=
    finding.toMappingBars.outside fun idx member => List.mem_range.mp member
  have config : card.configBar = xdev.configBarIdx := by
    rw [finding.found, Card.configBar, configured]
    exact if_pos finding.mappable
  unfold requireConfigBar require
  rw [EStateM.run_bind, EStateM.run_get]
  dsimp only
  cases found : xdev.configBarIdx with
  | none => exact ⟨config.trans found, finding.booked, finding.only, outside⟩
  | some c => exact ⟨⟨c, config.trans found, found⟩, finding.booked, finding.only, outside⟩

theorem identifyBars_meets (found : FoundBars) :
    Meets (modify (identifyBars found) : EStateM Unit Xdev PUnit) (BarsMapped card others start)
      (fun _ => BarsMapped card others start) (NotFound card others start) := by
  apply Meets.modify
  rintro xdev ⟨config, booked, only, outside⟩
  obtain ⟨user, bypass, same⟩ := identifyBars_touches found xdev
  rw [same]
  exact ⟨config, booked, only.changed _ _ _ _ _, outside⟩

structure Unmapped (others : List Resource) (start xdev : Xdev) : Prop where
  same : xdev = start
  booked : Booked others xdev
  bars : ∀ idx, xdev.bar idx = none
  unset : xdev.configBarIdx = none

theorem Unmapped.finding {xdev : Xdev} (unmapped : Unmapped others start xdev) : Finding card others start [] xdev := by
  obtain ⟨rfl, booked, bars, unset⟩ := unmapped
  exact ⟨⟨booked, .refl xdev, fun idx _ => bars idx⟩, fun _ member => absurd member List.not_mem_nil, unset⟩

theorem mapAllBars_meets (configured : card.configBarNum = none) :
    Meets (mapAllBars card) (Unmapped others start) (fun _ => BarsMapped card others start)
      (BarsFailed card others start) := by
  apply Meets.unwind _ fun xdev notFound => NotFound.unmapBars configured notFound
  have loop := Meets.foldlM (fun front (_ : FoundBars) => Finding card others start front)
    (@mapNextBar_meets card others start configured) ⟨[], 0⟩
  apply Meets.bind _ (loop.weaken (fun _ unmapped => unmapped.finding) (fun _ _ finding => finding) fun _ failed => failed)
  intro found
  apply Meets.bind _ (requireConfigBar_meets configured)
  intro _
  exact identifyBars_meets found

structure NamedBar (card : Card) (others : List Resource) (num : Fin xdmaBarNum) (start xdev : Xdev) : Prop
    extends MappingBars others [num.val] start xdev where
  bar : xdev.bar num = (card.mapSingleBar num).2

section Named

variable {num : Fin xdmaBarNum} {xdev : Xdev}

theorem configBar_configured (configured : card.configBarNum = some num) :
    card.configBar = if 0 < card.barLen num ∧ card.isConfigBar num = true then some num.val else none := by
  unfold Card.configBar
  rw [configured]

theorem misnamedBar_configured (configured : card.configBarNum = some num) :
    card.misnamedBar ↔ 0 < card.barLen num ∧ card.isConfigBar num = false := by
  simp [Card.misnamedBar, configured]

theorem NamedBar.outside (named : NamedBar card others num start xdev) : ∀ idx, xdmaBarNum ≤ idx → xdev.bar idx = none := by
  apply named.toMappingBars.outside
  intro idx member
  rw [List.mem_singleton.mp member]
  exact num.isLt

theorem NamedBar.short (configured : card.configBarNum = some num) (named : NamedBar card others num start xdev)
    (short : ¬ 0 < card.barLen num) : BarsFailed card others start xdev := by
  have missing : card.configBar = none := by rw [configBar_configured configured, if_neg fun both => short both.1]
  have none : ∀ idx, xdev.bar idx = none := by
    intro idx
    by_cases here : idx = num
    · rw [here, named.bar]
      exact unmapped_of_not_pos short
    · exact named.unmapped idx (by simpa using here)
  have correct : ¬ card.misnamedBar := fun misnamed => short ((misnamedBar_configured configured).mp misnamed).1
  exact ⟨missing, named.booked, named.only, iff_of_true none correct⟩

theorem NamedBar.misnamed (configured : card.configBarNum = some num) (named : NamedBar card others num start xdev)
    (mapped : 0 < card.barLen num) (other : card.isConfigBar num = false) : BarsFailed card others start xdev := by
  have missing : card.configBar = none := by rw [configBar_configured configured, if_neg (by simp [other])]
  have misnamed : card.misnamedBar := (misnamedBar_configured configured).mpr ⟨mapped, other⟩
  have left : (xdev.bar num).isSome = true := by
    rw [named.bar]
    exact (barLen_pos_iff num.val).mp mapped
  have stays : ¬ ∀ idx, xdev.bar idx = none := by
    intro none
    rw [none num] at left
    cases left
  exact ⟨missing, named.booked, named.only, iff_of_false stays (not_not_intro misnamed)⟩

theorem mapConfigBar_meets (configured : card.configBarNum = some num) :
    Meets (mapConfigBar card num) (Unmapped others start) (fun _ => BarsMapped card others start)
      (BarsFailed card others start) := by
  unfold mapConfigBar
  apply Meets.bind fun _ => NamedBar card others num start
  · apply Meets.modify
    rintro xdev ⟨rfl, booked, bars, -⟩
    have mapping : MappingBars others [] xdev xdev := ⟨booked, .refl xdev, fun idx _ => bars idx⟩
    refine ⟨mapping.next (by simp), ?_⟩
    rw [mapBar_eq]
    exact if_pos rfl
  · intro _ xdev named
    unfold require
    by_cases mapped : 0 < (card.mapSingleBar num).1
    · rw [if_pos (decide_eq_true mapped)]
      cases isConfig : card.isConfigBar num with
      | true =>
        have found : card.configBar = some num.val := by rw [configBar_configured configured, if_pos ⟨mapped, isConfig⟩]
        exact ⟨⟨num, found, rfl⟩, named.booked, named.only.changed _ _ _ _ _, named.outside⟩
      | false => exact named.misnamed configured mapped isConfig
    · rw [if_neg (by simpa using mapped)]
      exact named.short configured mapped

end Named

theorem mapBars_meets :
    Meets (mapBars card) (Unmapped others start) (fun _ => BarsMapped card others start)
      (BarsFailed card others start) := by
  unfold mapBars
  cases configured : card.configBarNum with
  | none => exact mapAllBars_meets configured
  | some num => exact mapConfigBar_meets configured

end Bars

end CigCard.Xdma.Opening
