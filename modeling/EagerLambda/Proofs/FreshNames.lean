import EagerLambda.Workspace
import Mathlib.Data.List.Nodup

/-!
# Numbered names

A fresh name is its base followed by a count in decimal, and counts are kept base by base.
`eq_or_numbered_of_numbered_eq` shows how two bases can lead to the same name, and
`nodup_mintAll_iff` says exactly when a new supply hands out no name twice.
-/

namespace EagerLambda

theorem toDigits_injective {m n : Nat} (same : Nat.toDigits 10 m = Nat.toDigits 10 n) : m = n := by
  have value := congrArg (Nat.ofDigitChars 10 · 0) same
  simpa using value

/-- What stands before a numeral at the end of a longer numeral is itself a numeral. -/
theorem numeral_of_append {digits : List Char} {k n : Nat} (nonempty : digits ≠ [])
    (h : digits ++ Nat.toDigits 10 k = Nat.toDigits 10 n) (positive : 0 < k) :
    ∃ m, 0 < m ∧ digits = Nat.toDigits 10 m ∧ 10 * m < n := by
  induction k using Nat.strongRecOn generalizing n with
  | _ k ih =>
    have long : 10 ≤ n := by
      apply Nat.le_of_not_lt
      intro small
      have lengths := congrArg List.length h
      rw [Nat.toDigits_of_lt_base small, List.length_append, List.length_singleton] at lengths
      have := List.length_pos_of_ne_nil nonempty
      have := Nat.length_toDigits_pos (b := 10) (n := k)
      omega
    rw [Nat.toDigits_of_base_le (by decide) long] at h
    -- Both sides end in one digit; what is left is the same question about `k / 10` and `n / 10`.
    by_cases short : k < 10
    · rw [Nat.toDigits_of_lt_base short] at h
      obtain ⟨front, last⟩ := List.append_inj' h rfl
      have last : k.digitChar = (n % 10).digitChar := by simpa using last
      have digit : k = n % 10 := by
        have := Nat.toNat_digitChar_of_lt_ten short
        have := Nat.toNat_digitChar_of_lt_ten (Nat.mod_lt n (by decide : 10 > 0))
        rw [last] at *
        omega
      exact ⟨n / 10, by omega, front, by omega⟩
    · rw [Nat.toDigits_of_base_le (by decide) (by omega), ← List.append_assoc] at h
      obtain ⟨front, -⟩ := List.append_inj' h rfl
      obtain ⟨m, pos, same, less⟩ := ih (k / 10) (by omega) front (by omega)
      exact ⟨m, pos, same, by omega⟩

/-- A base with a number behind it, as a supply writes its names. -/
def Name.numbered (base : Name) (k : Nat) : Name := base ++ k.repr

theorem Supply.next_eq_numbered (s : Supply) (base : Name) :
    s.next base = base.numbered (s.count base + 1) := rfl

theorem Name.toList_numbered (base : Name) (k : Nat) :
    (base.numbered k).toList = base.toList ++ Nat.toDigits 10 k := by
  simp [Name.numbered]

theorem Name.numbered_inj {base : Name} {j k : Nat} (same : base.numbered j = base.numbered k) :
    j = k := by
  have same := congrArg String.toList same
  rw [toList_numbered, toList_numbered] at same
  exact toDigits_injective (List.append_cancel_left same)

theorem Name.numbered_append (base : Name) {m k : Nat} (positive : 0 < m) (digit : k < 10) :
    (base.numbered m).numbered k = base.numbered (10 * m + k) := by
  apply String.toList_inj.mp
  rw [toList_numbered, toList_numbered, toList_numbered, List.append_assoc,
    Nat.toDigits_append_toDigits (by decide) positive digit]

/-- If two bases lead to the same name then they are equal, or one of them is the other with a
number behind it that is less than a tenth of the other's count. -/
theorem Name.eq_or_numbered_of_numbered_eq {b c : Name} {j k : Nat} (hj : 0 < j) (hk : 0 < k)
    (same : b.numbered j = c.numbered k) :
    b = c ∧ j = k ∨ (∃ m, 0 < m ∧ c = b.numbered m ∧ 10 * m < j) ∨
      (∃ m, 0 < m ∧ b = c.numbered m ∧ 10 * m < k) := by
  by_cases equal : b = c
  · subst c
    exact Or.inl ⟨rfl, numbered_inj same⟩
  have lists := congrArg String.toList same
  rw [toList_numbered, toList_numbered] at lists
  rcases List.append_eq_append_iff.mp lists with ⟨digits, front, rest⟩ | ⟨digits, front, rest⟩
  · have nonempty : digits ≠ [] := by
      rintro rfl
      exact equal (String.toList_inj.mp (by simpa using front.symm))
    obtain ⟨m, pos, numeral, less⟩ := numeral_of_append nonempty rest.symm hk
    refine Or.inr (Or.inl ⟨m, pos, String.toList_inj.mp ?_, less⟩)
    rw [front, numeral, toList_numbered]
  · have nonempty : digits ≠ [] := by
      rintro rfl
      exact equal (String.toList_inj.mp (by simpa using front))
    obtain ⟨m, pos, numeral, less⟩ := numeral_of_append nonempty rest.symm hj
    refine Or.inr (Or.inr ⟨m, pos, String.toList_inj.mp ?_, less⟩)
    rw [front, numeral, toList_numbered]

/-! ### Requests to a supply -/

/-- The base and the count of each name that a supply makes for a list of bases. -/
def Supply.requests (s : Supply) : List Name → List (Name × Nat)
  | [] => []
  | base :: bases => (base, s.count base + 1) :: (s.advance base).requests bases

theorem Workspace.mintAll_eq_requests (w : Workspace) (bases : List Name) :
    (w.mintAll bases).1 = (w.supply.requests bases).map fun r => r.1.numbered r.2 := by
  induction bases generalizing w with
  | nil => rfl
  | cons base bases ih =>
    rw [mintAll, Supply.requests, List.map_cons, ih]
    rfl

theorem Supply.mem_requests (s : Supply) (bases : List Name) (b : Name) (k : Nat) :
    (b, k) ∈ s.requests bases ↔ s.count b < k ∧ k ≤ s.count b + bases.count b := by
  induction bases generalizing s with
  | nil =>
    simp only [requests, List.not_mem_nil, List.count_nil, false_iff]
    omega
  | cons base bases ih =>
    rw [requests, List.mem_cons, ih, count_advance, List.count_cons, Prod.mk.injEq]
    by_cases same : base = b
    · subst same
      simp only [if_pos, beq_self_eq_true, true_and]
      omega
    · simp only [if_neg same, beq_iff_eq, Ne.symm same, false_and, false_or]
      omega

theorem Supply.nodup_requests (s : Supply) (bases : List Name) : (s.requests bases).Nodup := by
  induction bases generalizing s with
  | nil => exact List.nodup_nil
  | cons base bases ih =>
    rw [requests, List.nodup_cons]
    refine ⟨?_, ih _⟩
    rw [mem_requests, count_advance, if_pos rfl]
    omega

/-- A new supply hands out no name twice exactly if no base is requested more than ten times as
often as a number `m` says when the base with `m` behind it is requested too. -/
theorem Workspace.nodup_mintAll_iff (bases : List Name) :
    (Workspace.mintAll {} bases).1.Nodup ↔
      ∀ (base : Name) (m : Nat), 0 < m → base.numbered m ∈ bases → bases.count base ≤ 10 * m := by
  have mem := Supply.mem_requests .empty bases
  simp only [Supply.count_empty, Nat.zero_add] at mem
  rw [mintAll_eq_requests, List.nodup_map_iff_inj_on (Supply.nodup_requests _ _)]
  constructor
  · intro injective base m positive requested
    apply Nat.le_of_not_lt
    intro many
    -- The request `10 * m + 1` for the base and the first one for the other give the same name.
    have first := (mem base (10 * m + 1)).mpr ⟨by omega, many⟩
    have second := (mem (base.numbered m) 1).mpr ⟨by omega, List.count_pos_iff.mpr requested⟩
    have equal := injective _ first _ second (Name.numbered_append base positive (by decide)).symm
    have counts : 10 * m + 1 = 1 := congrArg Prod.snd equal
    omega
  · rintro few ⟨b, j⟩ first ⟨c, k⟩ second same
    obtain ⟨hj, jLe⟩ := (mem b j).mp first
    obtain ⟨hk, kLe⟩ := (mem c k).mp second
    change b.numbered j = c.numbered k at same
    rcases Name.eq_or_numbered_of_numbered_eq hj hk same with
      ⟨rfl, rfl⟩ | ⟨m, pos, rfl, less⟩ | ⟨m, pos, rfl, less⟩
    · rfl
    · have bound := few b m pos (List.count_pos_iff.mp (by omega))
      omega
    · have bound := few c m pos (List.count_pos_iff.mp (by omega))
      omega

/-- After eleven names from `y` and one from `y1`, the name `y11` has been handed out twice. -/
theorem Workspace.mintAll_repeats_y11 :
    ¬ (Workspace.mintAll {} (List.replicate 11 "y" ++ ["y1"])).1.Nodup := by
  rw [mintAll_eq_requests]
  decide +kernel

end EagerLambda
