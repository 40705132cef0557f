import Mathlib.Data.List.Nodup

namespace Ledger

structure Registry (κ υ : Type*) where
  owner : κ → Option υ
  misused : Bool

variable {κ υ : Type*}

namespace Registry

def empty : Registry κ υ := ⟨fun _ => none, false⟩

def Holds (registry : Registry κ υ) (claims : List (κ × υ)) : Prop :=
  ∀ key user, registry.owner key = some user ↔ (key, user) ∈ claims

theorem Holds.nothing {registry : Registry κ υ} (holds : registry.Holds []) (key : κ) :
    registry.owner key = none := by
  apply Option.eq_none_iff_forall_ne_some.mpr
  intro user held
  cases (holds key user).mp held

theorem Holds.owner_eq {first second : Registry κ υ} {claims : List (κ × υ)}
    (one : first.Holds claims) (other : second.Holds claims) : first.owner = second.owner := by
  funext key
  apply Option.ext
  intro user
  rw [one key user, other key user]

theorem Holds.free {registry : Registry κ υ} {claims : List (κ × υ)} (holds : registry.Holds claims)
    {key : κ} (fresh : key ∉ claims.map Prod.fst) : registry.owner key = none := by
  apply Option.eq_none_iff_forall_ne_some.mpr
  intro user held
  exact fresh (List.mem_map.mpr ⟨(key, user), (holds key user).mp held, rfl⟩)

section Single

variable {registry : Registry κ Unit} {held : κ → Prop}

structure Agrees (registry : Registry κ Unit) (held : κ → Prop) : Prop where
  owner : ∀ key, registry.owner key = some () ↔ held key
  clean : registry.misused = false

theorem Agrees.congr {other : κ → Prop} (agrees : registry.Agrees held) (same : ∀ key, held key ↔ other key) :
    registry.Agrees other :=
  ⟨fun key => (agrees.owner key).trans (same key), agrees.clean⟩

theorem Agrees.free {key : κ} (agrees : registry.Agrees held) (away : ¬ held key) : registry.owner key = none := by
  apply Option.eq_none_iff_forall_ne_some.mpr
  intro _ taken
  exact away ((agrees.owner key).mp taken)

theorem Agrees.holds_nothing (agrees : registry.Agrees held) : registry.Holds [] ↔ ∀ key, ¬ held key := by
  constructor
  · intro nothing key here
    have missing := nothing.nothing key
    rw [(agrees.owner key).mpr here] at missing
    cases missing
  · intro none key user
    have free := agrees.free (none key)
    simp [free]

end Single

variable [DecidableEq κ]

def acquire (registry : Registry κ υ) (key : κ) (user : υ) : Registry κ υ :=
  if (registry.owner key).isSome then { registry with misused := true }
  else { registry with owner := fun k => if k = key then some user else registry.owner k }

theorem acquire_free {registry : Registry κ υ} {key : κ} (user : υ) (free : registry.owner key = none) :
    registry.acquire key user =
      { registry with owner := fun k => if k = key then some user else registry.owner k } := by
  simp [acquire, free]

theorem acquire_held {registry : Registry κ υ} {key : κ} (user : υ)
    (held : (registry.owner key).isSome) : (registry.acquire key user).misused = true := by
  simp [acquire, held]

theorem acquire_misused {registry : Registry κ υ} (key : κ) (user : υ) (misused : registry.misused = true) :
    (registry.acquire key user).misused = true := by
  unfold acquire
  split
  · rfl
  · exact misused

theorem acquire_elsewhere (registry : Registry κ υ) {key other : κ} (user : υ) (away : other ≠ key) :
    (registry.acquire key user).owner other = registry.owner other := by
  unfold acquire
  split
  · rfl
  · exact if_neg away

theorem Holds.acquire {registry : Registry κ υ} {claims : List (κ × υ)} (holds : registry.Holds claims)
    (key : κ) (user : υ) (free : registry.owner key = none) :
    (registry.acquire key user).Holds (claims ++ [(key, user)]) := by
  intro k u
  rw [acquire_free user free]
  have away : (key, u) ∉ claims := by
    intro member
    have held := (holds key u).mpr member
    rw [free] at held
    cases held
  by_cases here : k = key
  · subst k
    simp [away, eq_comm]
  · simpa [here] using holds k u

def acquireAll (registry : Registry κ υ) (claims : List (κ × υ)) : Registry κ υ :=
  claims.foldl (fun registry claim => registry.acquire claim.1 claim.2) registry

@[simp] theorem acquireAll_nil (registry : Registry κ υ) : registry.acquireAll [] = registry := rfl

@[simp] theorem acquireAll_cons (registry : Registry κ υ) (claim : κ × υ) (claims : List (κ × υ)) :
    registry.acquireAll (claim :: claims) = (registry.acquire claim.1 claim.2).acquireAll claims := rfl

theorem acquireAll_append (registry : Registry κ υ) (first second : List (κ × υ)) :
    registry.acquireAll (first ++ second) = (registry.acquireAll first).acquireAll second :=
  List.foldl_append

/-- Taking what is free, each thing once, adds it to what is held, and nothing is misused. -/
theorem Holds.acquireAll {registry : Registry κ υ} {held claims : List (κ × υ)} (holds : registry.Holds held)
    (distinct : ((held ++ claims).map Prod.fst).Nodup) :
    (registry.acquireAll claims).Holds (held ++ claims) ∧
      (registry.acquireAll claims).misused = registry.misused := by
  induction claims generalizing registry held with
  | nil => simpa using holds
  | cons claim claims ih =>
    have fresh : claim.1 ∉ held.map Prod.fst := by
      rw [List.map_append, List.map_cons, List.nodup_append] at distinct
      intro member
      exact distinct.2.2 _ member _ List.mem_cons_self rfl
    have free := holds.free fresh
    have step := ih (holds.acquire claim.1 claim.2 free) (by simpa using distinct)
    rw [List.append_assoc, List.singleton_append] at step
    have unchanged : (registry.acquire claim.1 claim.2).misused = registry.misused := by
      rw [acquire_free _ free]
    exact ⟨step.1, step.2.trans unchanged⟩

variable [DecidableEq υ]

def release (registry : Registry κ υ) (key : κ) (user : υ) : Registry κ υ :=
  if registry.owner key = some user then
    { registry with owner := fun k => if k = key then none else registry.owner k }
  else { registry with misused := true }

theorem release_held {registry : Registry κ υ} {key : κ} {user : υ} (held : registry.owner key = some user) :
    registry.release key user =
      { registry with owner := fun k => if k = key then none else registry.owner k } := by
  simp [release, held]

theorem release_free {registry : Registry κ υ} {key : κ} {user : υ}
    (free : registry.owner key ≠ some user) : (registry.release key user).misused = true := by
  simp [release, free]

theorem release_misused {registry : Registry κ υ} (key : κ) (user : υ) (misused : registry.misused = true) :
    (registry.release key user).misused = true := by
  unfold release
  split
  · exact misused
  · rfl

theorem release_elsewhere (registry : Registry κ υ) {key other : κ} (user : υ) (away : other ≠ key) :
    (registry.release key user).owner other = registry.owner other := by
  unfold release
  split
  · exact if_neg away
  · rfl

theorem release_gone (registry : Registry κ υ) (key : κ) (user : υ) :
    (registry.release key user).owner key ≠ some user := by
  unfold release
  split
  · simp
  · assumption

theorem release_none {registry : Registry κ υ} {key : κ} (holder : υ) (other : κ) (user : υ)
    (gone : registry.owner key ≠ some holder) : (registry.release other user).owner key ≠ some holder := by
  by_cases here : key = other
  · subst other
    unfold release
    split
    · simp
    · exact gone
  · rwa [release_elsewhere registry user here]

theorem release_acquire {registry : Registry κ υ} {key : κ} (user : υ) (free : registry.owner key = none) :
    (registry.acquire key user).release key user = registry := by
  rw [acquire_free user free, release_held (by simp)]
  obtain ⟨owner, misused⟩ := registry
  have same : (fun k => if k = key then none else if k = key then some user else owner k) = owner := by
    funext k
    by_cases here : k = key
    · subst k
      simpa using free.symm
    · simp [here]
  simpa using same

def releaseAll (registry : Registry κ υ) (claims : List (κ × υ)) : Registry κ υ :=
  claims.foldl (fun registry claim => registry.release claim.1 claim.2) registry

@[simp] theorem releaseAll_nil (registry : Registry κ υ) : registry.releaseAll [] = registry := rfl

@[simp] theorem releaseAll_cons (registry : Registry κ υ) (claim : κ × υ) (claims : List (κ × υ)) :
    registry.releaseAll (claim :: claims) = (registry.release claim.1 claim.2).releaseAll claims := rfl

theorem releaseAll_append (registry : Registry κ υ) (first second : List (κ × υ)) :
    registry.releaseAll (first ++ second) = (registry.releaseAll first).releaseAll second :=
  List.foldl_append

theorem releaseAll_misused {registry : Registry κ υ} (claims : List (κ × υ)) (misused : registry.misused = true) :
    (registry.releaseAll claims).misused = true := by
  induction claims generalizing registry with
  | nil => exact misused
  | cons claim claims ih => exact ih (release_misused _ _ misused)

theorem Holds.release {registry : Registry κ υ} {claim : κ × υ} {claims : List (κ × υ)}
    (holds : registry.Holds (claim :: claims)) (fresh : claim.1 ∉ claims.map Prod.fst) :
    (registry.release claim.1 claim.2).Holds claims := by
  intro k u
  rw [release_held ((holds _ _).mpr List.mem_cons_self)]
  by_cases here : k = claim.1
  · subst k
    have missing : (claim.1, u) ∉ claims := fun member => fresh (List.mem_map.mpr ⟨_, member, rfl⟩)
    simp [missing]
  · have other : (k, u) ≠ claim := fun same => here (congrArg Prod.fst same)
    simpa [here, other] using holds k u

/-- Giving back everything that is held leaves nothing held, and nothing is misused. -/
theorem Holds.releaseAll {registry : Registry κ υ} {claims : List (κ × υ)} (holds : registry.Holds claims)
    (distinct : (claims.map Prod.fst).Nodup) :
    (registry.releaseAll claims).Holds [] ∧ (registry.releaseAll claims).misused = registry.misused := by
  induction claims generalizing registry with
  | nil => exact ⟨holds, rfl⟩
  | cons claim claims ih =>
    simp only [List.map_cons, List.nodup_cons] at distinct
    have step := ih (holds.release distinct.1) distinct.2
    have unchanged : (registry.release claim.1 claim.2).misused = registry.misused := by
      rw [release_held ((holds _ _).mpr List.mem_cons_self)]
    exact ⟨step.1, step.2.trans unchanged⟩

theorem releaseAll_gone {registry : Registry κ υ} (claims : List (κ × υ)) {key : κ} {user : υ}
    (gone : registry.owner key ≠ some user) : (registry.releaseAll claims).owner key ≠ some user := by
  induction claims generalizing registry with
  | nil => exact gone
  | cons first claims ih => exact ih (release_none user first.1 first.2 gone)

theorem releaseAll_released (registry : Registry κ υ) {claims : List (κ × υ)} {claim : κ × υ}
    (member : claim ∈ claims) : (registry.releaseAll claims).owner claim.1 ≠ some claim.2 := by
  induction claims generalizing registry with
  | nil => cases member
  | cons first claims ih =>
    rw [releaseAll_cons]
    rcases List.mem_cons.mp member with rfl | member
    · exact releaseAll_gone claims (release_gone registry claim.1 claim.2)
    · exact ih (registry.release first.1 first.2) member

/-- Giving back something that is not held is noticed, whatever is given back before or after it. -/
theorem releaseAll_spoils {registry : Registry κ υ} {claims : List (κ × υ)} {claim : κ × υ}
    (member : claim ∈ claims) (free : registry.owner claim.1 ≠ some claim.2) :
    (registry.releaseAll claims).misused = true := by
  induction claims generalizing registry with
  | nil => cases member
  | cons first claims ih =>
    change ((registry.release first.1 first.2).releaseAll claims).misused = true
    rcases List.mem_cons.mp member with rfl | member
    · exact releaseAll_misused _ (release_free free)
    · apply ih member
      intro held
      apply free
      unfold Registry.release at held
      split at held
      · by_cases here : claim.1 = first.1
        · simp [here] at held
        · simpa [here] using held
      · exact held

theorem releaseAll_twice (registry : Registry κ υ) {claims : List (κ × υ)} {claim : κ × υ}
    (member : claim ∈ claims) : ((registry.releaseAll claims).releaseAll claims).misused = true :=
  releaseAll_spoils member (releaseAll_released registry member)

section Single

variable {registry : Registry κ Unit} {held : κ → Prop}

theorem Agrees.acquire {key : κ} (agrees : registry.Agrees held) (away : ¬ held key) :
    (registry.acquire key ()).Agrees fun k => k = key ∨ held k := by
  rw [acquire_free () (agrees.free away)]
  constructor
  · intro k
    by_cases here : k = key
    · simp [here]
    · simpa [here] using agrees.owner k
  · exact agrees.clean

theorem Agrees.release {key : κ} (agrees : registry.Agrees held) (here : held key) :
    (registry.release key ()).Agrees fun k => k ≠ key ∧ held k := by
  rw [release_held ((agrees.owner key).mpr here)]
  constructor
  · intro k
    by_cases same : k = key
    · simp [same]
    · simpa [same] using agrees.owner k
  · exact agrees.clean

end Single

end Registry

end Ledger
