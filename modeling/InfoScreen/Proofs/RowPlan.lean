import InfoScreen.RowPlan
import InfoScreen.Proofs.Pattern

/-!
# The roles of the columns

A pattern makes its claims in a fixed order: the first request, then high and low nibble of each
byte, then the labels.  The role of a column is that of the latest claim on it, and it is idle if
there is none.  In a sound pattern no two claims are on one column, so every claim is granted.
-/

namespace InfoScreen

/-- The place of a role in the order in which a pattern of so many bytes makes its claims. -/
def Role.rank (bytes : Nat) : Role → Nat
  | idle => 0
  | read => 0
  | high k => 2 * k + 1
  | low k _ => 2 * k + 2
  | label .high => 2 * bytes + 1
  | label .low => 2 * bytes + 2

def Role.requests? : Role → Option Nat
  | read => some 0
  | low _ next => next
  | idle => none
  | high _ => none
  | label _ => none

def Role.shows? : Role → Option (Nat × Nibble)
  | high k => some (k, .high)
  | low k _ => some (k, .low)
  | idle => none
  | read => none
  | label _ => none

namespace Pattern

variable {pattern : Pattern} {withLabels : Bool}

/-- The byte that is requested where byte `k` shows its low nibble. -/
def nextByte (pattern : Pattern) (k : Nat) : Option Nat :=
  if k + 1 < pattern.bytesPerRow then some (k + 1) else none

theorem byteClaims_eq {k : Nat} (h : k < pattern.byteColumns.length) :
    pattern.byteClaims k pattern.byteColumns[k] =
      [(pattern.byteColumn k, .high k),
        (pattern.byteColumn k + 1, .low k (pattern.nextByte k))] := by
  rw [byteClaims, byteColumn_eq_getElem h]
  rfl

def allByteClaims (pattern : Pattern) : List Claim :=
  pattern.byteColumns.zipIdx.flatMap fun (col, k) ↦ pattern.byteClaims k col

theorem mem_allByteClaims_iff (pattern : Pattern) (claim : Claim) :
    claim ∈ pattern.allByteClaims ↔
      ∃ k < pattern.bytesPerRow, claim = (pattern.byteColumn k, .high k) ∨
        claim = (pattern.byteColumn k + 1, .low k (pattern.nextByte k)) := by
  rw [allByteClaims, List.mem_flatMap]
  constructor
  · rintro ⟨⟨col, k⟩, hmem, hclaim⟩
    obtain ⟨hk, hcol⟩ := List.mem_zipIdx' hmem
    change claim ∈ pattern.byteClaims k col at hclaim
    rw [hcol, byteClaims_eq hk] at hclaim
    exact ⟨k, hk, by simpa using hclaim⟩
  · rintro ⟨k, hk, hclaim⟩
    rw [bytesPerRow] at hk
    refine ⟨(pattern.byteColumns[k], k),
      List.mem_zipIdx_iff_getElem?.mpr (List.getElem?_eq_getElem hk), ?_⟩
    change claim ∈ pattern.byteClaims k pattern.byteColumns[k]
    rw [byteClaims_eq hk]
    simpa using hclaim

/-- The claims of a pattern, each kind with the columns it is on. -/
theorem mem_claims_iff (claim : Claim) :
    claim ∈ pattern.claims withLabels ↔
      claim = (pattern.readColumn.toNat, .read) ∨
      (∃ k < pattern.bytesPerRow, claim = (pattern.byteColumn k, .high k) ∨
        claim = (pattern.byteColumn k + 1, .low k (pattern.nextByte k))) ∨
      (withLabels = true ∧ ∃ nibble, claim = (pattern.labelColumn nibble, .label nibble)) := by
  have hlabels : (∃ nibble, claim = (pattern.labelColumn nibble, .label nibble)) ↔
      claim = (pattern.labelColumns.1.toNat, .label .high) ∨
        claim = (pattern.labelColumns.2.toNat, .label .low) := by
    constructor
    · rintro ⟨nibble, hclaim⟩
      cases nibble with
      | high => exact .inl hclaim
      | low => exact .inr hclaim
    · rintro (hclaim | hclaim)
      · exact ⟨.high, hclaim⟩
      · exact ⟨.low, hclaim⟩
  have hbytes := pattern.mem_allByteClaims_iff claim
  rw [allByteClaims] at hbytes
  rw [hlabels]
  cases withLabels <;> simp [claims, hbytes]

theorem mem_claims_read_iff {col : Nat} :
    (col, .read) ∈ pattern.claims withLabels ↔ col = pattern.readColumn.toNat := by
  rw [mem_claims_iff]
  simp

theorem mem_claims_high_iff {col k : Nat} :
    (col, .high k) ∈ pattern.claims withLabels ↔
      k < pattern.bytesPerRow ∧ col = pattern.byteColumn k := by
  rw [mem_claims_iff]
  simp

theorem mem_claims_low_iff {col k : Nat} {next : Option Nat} :
    (col, .low k next) ∈ pattern.claims withLabels ↔
      k < pattern.bytesPerRow ∧ col = pattern.byteColumn k + 1 ∧ next = pattern.nextByte k := by
  rw [mem_claims_iff]
  simp only [Prod.mk.injEq, reduceCtorEq, and_false, false_or, Role.low.injEq, exists_false,
    or_false]
  constructor
  · rintro ⟨j, hj, hcol, rfl, hnext⟩
    exact ⟨hj, hcol, hnext⟩
  · rintro ⟨hk, hcol, hnext⟩
    exact ⟨k, hk, hcol, rfl, hnext⟩

theorem mem_claims_label_iff {col : Nat} {nibble : Nibble} :
    (col, .label nibble) ∈ pattern.claims withLabels ↔
      withLabels = true ∧ col = pattern.labelColumn nibble := by
  rw [mem_claims_iff]
  simp

theorem allByteClaims_pairwise :
    pattern.allByteClaims.Pairwise fun a b ↦
      a.2.rank pattern.bytesPerRow < b.2.rank pattern.bytesPerRow := by
  rw [allByteClaims, List.pairwise_flatMap]
  constructor
  · rintro ⟨col, k⟩ -
    simp [byteClaims, Role.rank]
  · rw [List.pairwise_iff_getElem]
    intro j k hj hk hjk a ha b hb
    simp only [List.getElem_zipIdx, Nat.zero_add, byteClaims, List.mem_cons, List.not_mem_nil,
      or_false] at ha hb
    rcases ha with rfl | rfl <;> rcases hb with rfl | rfl <;> simp only [Role.rank] <;> omega

/-- Claims are made in the order of their ranks. -/
theorem claims_pairwise (pattern : Pattern) (withLabels : Bool) :
    (pattern.claims withLabels).Pairwise fun a b ↦
      a.2.rank pattern.bytesPerRow < b.2.rank pattern.bytesPerRow := by
  have hrank : ∀ claim ∈ pattern.allByteClaims,
      0 < claim.2.rank pattern.bytesPerRow ∧
        claim.2.rank pattern.bytesPerRow ≤ 2 * pattern.bytesPerRow := by
    intro claim hclaim
    obtain ⟨k, hk, rfl | rfl⟩ := (pattern.mem_allByteClaims_iff claim).mp hclaim <;>
      simp only [Role.rank] <;> omega
  rw [claims, List.pairwise_append, List.pairwise_append]
  refine ⟨⟨List.pairwise_singleton _ _, allByteClaims_pairwise, ?_⟩, ?_, ?_⟩
  · intro a ha b hb
    rw [List.mem_singleton] at ha
    subst ha
    exact (hrank b hb).1
  · cases withLabels <;> simp [Role.rank]
  · intro a ha b hb
    have hlate : 2 * pattern.bytesPerRow < b.2.rank pattern.bytesPerRow := by
      cases withLabels with
      | false => simp at hb
      | true =>
        simp only [if_true, List.mem_cons, List.not_mem_nil, or_false] at hb
        rcases hb with rfl | rfl <;> simp only [Role.rank] <;> omega
    rcases List.mem_append.mp ha with ha | ha
    · rw [List.mem_singleton] at ha
      subst ha
      exact Nat.lt_of_le_of_lt (Nat.zero_le _) hlate
    · exact Nat.lt_of_le_of_lt (hrank a ha).2 hlate

/-- The role of a column is that of the latest claim on it. -/
theorem roleOf_cases (pattern : Pattern) (withLabels : Bool) (col : Nat) :
    (roleOf (pattern.claims withLabels) col = .idle ∧
      ∀ claim ∈ pattern.claims withLabels, claim.1 ≠ col) ∨
    ∃ claim ∈ pattern.claims withLabels, claim.1 = col ∧
      roleOf (pattern.claims withLabels) col = claim.2 ∧
      ∀ other ∈ pattern.claims withLabels, other.1 = col →
        other.2.rank pattern.bytesPerRow ≤ claim.2.rank pattern.bytesPerRow := by
  have horder := pattern.claims_pairwise withLabels
  rcases hfind : (pattern.claims withLabels).reverse.find? (fun claim ↦ claim.1 = col) with
    _ | claim
  · left
    refine ⟨by simp [roleOf, hfind], fun claim hclaim ↦ ?_⟩
    simpa using List.find?_eq_none.mp hfind claim (List.mem_reverse.mpr hclaim)
  · right
    obtain ⟨hcol, later, earlier, happend, hlater⟩ := List.find?_eq_some_iff_append.mp hfind
    have hclaims : pattern.claims withLabels = earlier.reverse ++ claim :: later.reverse := by
      rw [← List.reverse_reverse (pattern.claims withLabels), happend]
      simp
    refine ⟨claim, by simp [hclaims], by simpa using hcol, by simp [roleOf, hfind], ?_⟩
    intro other hother hsame
    rw [hclaims] at hother horder
    rcases List.mem_append.mp hother with hearlier | hrest
    · exact Nat.le_of_lt ((List.pairwise_append.mp horder).2.2 other hearlier claim
        List.mem_cons_self)
    · rcases List.mem_cons.mp hrest with rfl | hother
      · exact Nat.le_refl _
      · exact absurd hsame (by simpa using hlater other (List.mem_reverse.mp hother))

/-- A column that is not idle has claimed its role. -/
theorem mem_claims_of_roleOf {col : Nat} {role : Role} (hrole : role ≠ .idle)
    (h : roleOf (pattern.claims withLabels) col = role) :
    (col, role) ∈ pattern.claims withLabels := by
  rcases pattern.roleOf_cases withLabels col with ⟨hidle, -⟩ | ⟨claim, hclaim, hcol, hgranted, -⟩
  · exact absurd (h.symm.trans hidle) hrole
  · rw [← h, hgranted, ← hcol]
    exact hclaim

/-- No claim on a column comes after the one that is granted. -/
theorem rank_le_of_claim {claim : Claim} (hclaim : claim ∈ pattern.claims withLabels) :
    claim.2.rank pattern.bytesPerRow ≤
      (roleOf (pattern.claims withLabels) claim.1).rank pattern.bytesPerRow := by
  rcases pattern.roleOf_cases withLabels claim.1 with ⟨-, hnone⟩ | ⟨granted, -, -, hrole, hlatest⟩
  · exact absurd rfl (hnone claim hclaim)
  · rw [hrole]
    exact hlatest claim hclaim rfl

/-- A claim is granted if no claim of another role on the same column comes later. -/
theorem roleOf_eq_of_latest {claim : Claim} (hclaim : claim ∈ pattern.claims withLabels)
    (hlatest : ∀ other ∈ pattern.claims withLabels, other.1 = claim.1 → other = claim) :
    roleOf (pattern.claims withLabels) claim.1 = claim.2 := by
  rcases pattern.roleOf_cases withLabels claim.1 with
    ⟨-, hnone⟩ | ⟨other, hother, hcol, hrole, -⟩
  · exact absurd rfl (hnone claim hclaim)
  · rw [hrole, hlatest other hother hcol]

/-- A plan exists if there is a byte and all claims are on the grid. -/
theorem rowPlan_eq_ok_iff (plan : List Role) :
    pattern.rowPlan withLabels = .ok plan ↔
      0 < pattern.bytesPerRow ∧ (∀ claim ∈ pattern.claims withLabels, claim.1 < gridColumns) ∧
        plan = (List.range gridColumns).map (roleOf (pattern.claims withLabels)) := by
  unfold rowPlan
  rw [Outcome.guard_halt_eq_ok, bytesPerRow, List.length_pos_iff]
  dsimp only
  split
  next claim hfind =>
    have hoff : gridColumns ≤ claim.1 := by simpa using List.find?_some hfind
    constructor
    · rintro ⟨-, h⟩
      exact absurd h (Outcome.halt_ne_ok _ _)
    · rintro ⟨-, hgrid, -⟩
      exact absurd (hgrid claim (List.mem_of_find?_eq_some hfind)) (Nat.not_lt_of_le hoff)
  next hfind =>
    have hgrid : ∀ claim ∈ pattern.claims withLabels, claim.1 < gridColumns := by
      intro claim hclaim
      simpa using List.find?_eq_none.mp hfind claim hclaim
    rw [Outcome.pure_eq_ok]
    constructor
    · rintro ⟨hbytes, rfl⟩
      exact ⟨hbytes, hgrid, rfl⟩
    · rintro ⟨hbytes, -, rfl⟩
      exact ⟨hbytes, rfl⟩

/-! ## Roles in a sound pattern -/

namespace Sound

/-- The column of a claim decides the claim. -/
theorem claim_unique (h : pattern.Sound withLabels) {a b : Claim}
    (ha : a ∈ pattern.claims withLabels) (hb : b ∈ pattern.claims withLabels)
    (hcol : a.1 = b.1) : a = b := by
  have hread : ∀ k < pattern.bytesPerRow, pattern.readColumn.toNat < pattern.byteColumn k :=
    fun k hk ↦ h.readColumn_lt_byteColumn hk
  have hbytes : ∀ j < pattern.bytesPerRow, ∀ k < pattern.bytesPerRow, j ≠ k →
      pattern.byteColumn j ≠ pattern.byteColumn k ∧
        pattern.byteColumn j ≠ pattern.byteColumn k + 1 :=
    fun j hj k hk hjk ↦ h.byteColumn_ne hj hk hjk
  have hlabels : withLabels = true → ∀ nibble, pattern.Free (pattern.labelColumn nibble) ∧
      ∀ other, pattern.labelColumn nibble = pattern.labelColumn other → nibble = other :=
    fun hon nibble ↦ ⟨(h.labelled hon).free nibble, fun _ ↦ (h.labelled hon).labelColumn_inj⟩
  have hfree : ∀ col, pattern.Free col → col ≠ pattern.readColumn.toNat ∧
      ∀ k < pattern.bytesPerRow, col ≠ pattern.byteColumn k ∧ col ≠ pattern.byteColumn k + 1 :=
    fun col hcol ↦ ⟨hcol.ne_request, hcol.ne_nibble⟩
  rw [mem_claims_iff] at ha hb
  grind

theorem roleOf_claim (h : pattern.Sound withLabels) {claim : Claim}
    (hclaim : claim ∈ pattern.claims withLabels) :
    roleOf (pattern.claims withLabels) claim.1 = claim.2 :=
  roleOf_eq_of_latest hclaim fun _ hother hcol ↦ h.claim_unique hother hclaim hcol

/-- Every claim of a sound pattern is granted, and no column has a role that is not claimed. -/
theorem roleOf_eq_iff (h : pattern.Sound withLabels) {col : Nat} {role : Role}
    (hrole : role ≠ .idle) :
    roleOf (pattern.claims withLabels) col = role ↔ (col, role) ∈ pattern.claims withLabels := by
  constructor
  · exact mem_claims_of_roleOf hrole
  · intro hclaim
    exact h.roleOf_claim hclaim

theorem roleOf_eq_read_iff (h : pattern.Sound withLabels) {col : Nat} :
    roleOf (pattern.claims withLabels) col = .read ↔ col = pattern.readColumn.toNat := by
  rw [h.roleOf_eq_iff Role.noConfusion, mem_claims_read_iff]

theorem roleOf_eq_high_iff (h : pattern.Sound withLabels) {col k : Nat} :
    roleOf (pattern.claims withLabels) col = .high k ↔
      k < pattern.bytesPerRow ∧ col = pattern.byteColumn k := by
  rw [h.roleOf_eq_iff Role.noConfusion, mem_claims_high_iff]

theorem roleOf_eq_low_iff (h : pattern.Sound withLabels) {col k : Nat} {next : Option Nat} :
    roleOf (pattern.claims withLabels) col = .low k next ↔
      k < pattern.bytesPerRow ∧ col = pattern.byteColumn k + 1 ∧ next = pattern.nextByte k := by
  rw [h.roleOf_eq_iff Role.noConfusion, mem_claims_low_iff]

theorem roleOf_eq_label_iff (h : pattern.Sound withLabels) {col : Nat} {nibble : Nibble} :
    roleOf (pattern.claims withLabels) col = .label nibble ↔
      withLabels = true ∧ col = pattern.labelColumn nibble := by
  rw [h.roleOf_eq_iff Role.noConfusion, mem_claims_label_iff]

theorem requests?_eq_some_iff (h : pattern.Sound withLabels) {col k : Nat} :
    (roleOf (pattern.claims withLabels) col).requests? = some k ↔
      k < pattern.bytesPerRow ∧ col = pattern.requestColumn k := by
  constructor
  · intro hrequests
    cases hrole : roleOf (pattern.claims withLabels) col with
    | read =>
      obtain rfl : 0 = k := by simpa [hrole, Role.requests?] using hrequests
      exact ⟨h.bytes_pos, h.roleOf_eq_read_iff.mp hrole⟩
    | low j next =>
      obtain ⟨-, hcol, hnext⟩ := h.roleOf_eq_low_iff.mp hrole
      rw [hrole, Role.requests?, hnext, nextByte, Option.ite_none_right_eq_some] at hrequests
      obtain ⟨hj, heq⟩ := hrequests
      obtain rfl : j + 1 = k := by simpa using heq
      exact ⟨hj, hcol⟩
    | idle => simp [hrole, Role.requests?] at hrequests
    | high j => simp [hrole, Role.requests?] at hrequests
    | label nibble => simp [hrole, Role.requests?] at hrequests
  · rintro ⟨hk, hcol⟩
    cases k with
    | zero => rw [h.roleOf_eq_read_iff.mpr hcol, Role.requests?]
    | succ k =>
      rw [h.roleOf_eq_low_iff.mpr ⟨by omega, hcol, rfl⟩, Role.requests?, nextByte, if_pos hk]

theorem shows?_eq_some_iff (h : pattern.Sound withLabels) {col k : Nat} {nibble : Nibble} :
    (roleOf (pattern.claims withLabels) col).shows? = some (k, nibble) ↔
      k < pattern.bytesPerRow ∧ col = pattern.nibbleColumn k nibble := by
  constructor
  · intro hshows
    cases hrole : roleOf (pattern.claims withLabels) col with
    | high j =>
      obtain ⟨rfl, rfl⟩ : j = k ∧ .high = nibble := by simpa [hrole, Role.shows?] using hshows
      exact h.roleOf_eq_high_iff.mp hrole
    | low j next =>
      obtain ⟨rfl, rfl⟩ : j = k ∧ .low = nibble := by simpa [hrole, Role.shows?] using hshows
      obtain ⟨hj, hcol, -⟩ := h.roleOf_eq_low_iff.mp hrole
      exact ⟨hj, hcol⟩
    | idle => simp [hrole, Role.shows?] at hshows
    | read => simp [hrole, Role.shows?] at hshows
    | label nibble => simp [hrole, Role.shows?] at hshows
  · rintro ⟨hk, hcol⟩
    cases nibble with
    | high => rw [h.roleOf_eq_high_iff.mpr ⟨hk, hcol⟩, Role.shows?]
    | low => rw [h.roleOf_eq_low_iff.mpr ⟨hk, hcol, rfl⟩, Role.shows?]

theorem rowPlan_eq (h : pattern.Sound withLabels) :
    pattern.rowPlan withLabels =
      .ok ((List.range gridColumns).map (roleOf (pattern.claims withLabels))) := by
  refine (rowPlan_eq_ok_iff _).mpr ⟨h.bytes_pos, fun claim hclaim ↦ ?_, rfl⟩
  rcases (mem_claims_iff claim).mp hclaim with rfl | ⟨k, hk, rfl | rfl⟩ | ⟨hon, nibble, rfl⟩
  · have hfirst := h.request_lt
    have hgrid := h.byteColumn_lt h.bytes_pos
    dsimp only
    omega
  · have hgrid := h.byteColumn_lt hk
    dsimp only
    omega
  · exact h.byteColumn_lt hk
  · exact ((h.labelled hon).free nibble).lt_grid

end Sound

end Pattern

end InfoScreen
