import Svgd.Lib.CString
import Mathlib.Tactic.Ring

/-!
# Decimal numerals

Printing (`%d`, `%ld`, `%lld`) and reading (`strtoll`, `atoi`) of integers. The
printer is fuelled by the number itself, so it is structural and evaluates; the
fuel never runs out, because a number has fewer digits than its value plus one.
-/

namespace Lib

/-- `isdigit`. -/
def isDigit (b : UInt8) : Bool := 48 ≤ b.toNat && b.toNat ≤ 57

/-- The digit character of a number below ten. -/
def digitChar (d : Nat) : UInt8 := UInt8.ofNat (48 + d)

/-- The number a digit character stands for. -/
def digitVal (b : UInt8) : Nat := b.toNat - 48

/-- The number a digit string stands for. -/
def natValue (s : Bytes) : Nat := s.foldl (fun a b => a * 10 + digitVal b) 0

/-- The digits of `n` in front of `acc`. -/
def printNatGo : Nat → Nat → Bytes → Bytes
  | 0, _, acc => acc
  | fuel + 1, n, acc =>
      if n / 10 = 0 then digitChar (n % 10) :: acc
      else printNatGo fuel (n / 10) (digitChar (n % 10) :: acc)

/-- `%u`. -/
def printNat (n : Nat) : Bytes := printNatGo (n + 1) n []

/-- `%d`, `%ld` and `%lld`. -/
def printInt (z : Int) : Bytes :=
  if z < 0 then ch '-' :: printNat z.natAbs else printNat z.natAbs

/-! ## Reading -/

/-- `isspace` in the C locale. -/
def isSpace (b : UInt8) : Bool := b == 32 || (9 ≤ b.toNat && b.toNat ≤ 13)

/-- The value of a sign and a digit string, saturated to 64 bits as `strtoll` does. -/
def saturate64 (z : Int) : Int := max (-2 ^ 63) (min (2 ^ 63 - 1) z)

/-- `strtoll(s, &end, 10)`; `none` when no conversion is possible (`end == s`). -/
def strtoll (s : Bytes) : Option Int :=
  let t := s.dropWhile isSpace
  let neg := startsWith t (str "-")
  let u := if neg || startsWith t (str "+") then t.drop 1 else t
  let ds := u.takeWhile isDigit
  if ds = [] then none
  else some (saturate64 (if neg then -(natValue ds : Int) else natValue ds))

/-- The conversion of a `long` to an `unsigned int`. -/
def toUInt32 (z : Int) : Int := z % 2 ^ 32

/-- The conversion of a `long` to an `int`. -/
def toInt32 (z : Int) : Int := (z + 2 ^ 31) % 2 ^ 32 - 2 ^ 31

/-- The conversion of an `unsigned long long` to a `long long`. -/
def toInt64 (z : Int) : Int := (z + 2 ^ 63) % 2 ^ 64 - 2 ^ 63

/-- The conversion of a `long` to a `size_t`. -/
def toUInt64 (z : Int) : Int := z % 2 ^ 64

/-- `atol(s)`, which is `strtol(s, NULL, 10)`. -/
def atol (s : Bytes) : Int := (strtoll s).getD 0

/-- `atoi(s)`, which is `(int) strtol(s, NULL, 10)`. -/
def atoi (s : Bytes) : Int := toInt32 ((strtoll s).getD 0)

/-- The `%d` of `sscanf`: the number at the front and the text after it. -/
def scanInt (s : Bytes) : Option (Int × Bytes) :=
  let t := s.dropWhile isSpace
  let u := if startsWith t (str "-") || startsWith t (str "+") then t.drop 1 else t
  (strtoll s).map fun z => (toInt32 z, u.dropWhile isDigit)

/-- The numbers `sscanf` assigns for a format of `%d`s with these characters between them. -/
def scanFields : List UInt8 → Bytes → List Int
  | [], s => (scanInt s).elim [] fun r => [r.1]
  | c :: cs, s =>
      match scanInt s with
      | none => []
      | some (z, t) => z :: (if startsWith t [c] then scanFields cs (t.drop 1) else [])

/-! ## The printer -/

theorem digitChar_toNat {d : Nat} (h : d < 10) : (digitChar d).toNat = 48 + d := by
  unfold digitChar
  rw [UInt8.toNat_ofNat']
  omega

theorem isDigit_digitChar {d : Nat} (h : d < 10) : isDigit (digitChar d) = true := by
  unfold isDigit
  rw [digitChar_toNat h]
  simp only [Bool.and_eq_true, decide_eq_true_eq]
  omega

theorem digitVal_digitChar {d : Nat} (h : d < 10) : digitVal (digitChar d) = d := by
  unfold digitVal
  rw [digitChar_toNat h]
  omega

theorem natValue_append (s t : Bytes) :
    natValue (s ++ t) = natValue s * 10 ^ t.length + natValue t := by
  have key : ∀ (t : Bytes) (a : Nat),
      t.foldl (fun a b => a * 10 + digitVal b) a = a * 10 ^ t.length + natValue t := by
    intro t
    induction t with
    | nil => intro a; simp [natValue]
    | cons b t ih =>
        intro a
        have h0 := ih (0 * 10 + digitVal b)
        unfold natValue
        rw [List.foldl_cons, List.foldl_cons, ih, h0, List.length_cons, Nat.pow_succ]
        ring
  unfold natValue
  rw [List.foldl_append, key]
  rfl

theorem natValue_lt {ds : Bytes} (h : ∀ b ∈ ds, isDigit b = true) : natValue ds < 10 ^ ds.length := by
  induction ds using List.reverseRecOn with
  | nil => exact Nat.one_pos
  | append_singleton ds b ih =>
      have hds := ih fun c hc => h c (List.mem_append_left _ hc)
      have hb := h b (by simp)
      have hdigit : natValue [b] < 10 := by
        show 0 * 10 + digitVal b < 10
        simp only [isDigit, Bool.and_eq_true, decide_eq_true_eq] at hb
        unfold digitVal
        omega
      rw [natValue_append, List.length_append, List.length_singleton, Nat.pow_one, Nat.pow_succ]
      omega

/-- The printer puts the digits of `n` in front of its accumulator. -/
theorem printNatGo_spec : ∀ (fuel n : Nat) (acc : Bytes), n < fuel →
    ∃ ds, printNatGo fuel n acc = ds ++ acc ∧ natValue ds = n ∧ ds ≠ []
      ∧ (∀ b ∈ ds, isDigit b = true) ∧ (n ≠ 0 → ds.head? ≠ some (digitChar 0))
      ∧ (n = 0 → ds = [digitChar 0])
  | 0, _, _, h => by omega
  | fuel + 1, n, acc, h => by
      -- by the fuel; the last digit goes in front of the accumulator, the others follow
      have hd : n % 10 < 10 := Nat.mod_lt _ (by omega)
      rw [printNatGo]
      split
      · rename_i h0
        have hn : n % 10 = n := by omega
        refine ⟨[digitChar (n % 10)], rfl, ?_, by simp, ?_, ?_, ?_⟩
        · show 0 * 10 + digitVal (digitChar (n % 10)) = n
          rw [digitVal_digitChar hd]
          omega
        · intro b hb
          simp only [List.mem_singleton] at hb
          exact hb ▸ isDigit_digitChar hd
        · intro hne he
          have he' : digitChar (n % 10) = digitChar 0 := by simpa using he
          have := congrArg digitVal he'
          rw [digitVal_digitChar hd, digitVal_digitChar (by omega)] at this
          omega
        · intro hz; rw [hz]
      · rename_i h0
        obtain ⟨ds, h1, h2, h3, h4, h5, _⟩ :=
          printNatGo_spec fuel (n / 10) (digitChar (n % 10) :: acc) (by omega)
        refine ⟨ds ++ [digitChar (n % 10)], by rw [h1]; simp, ?_, by simp, ?_, ?_, ?_⟩
        · rw [natValue_append, h2]
          simp [natValue, digitVal_digitChar hd]
          omega
        · intro b hb
          rcases List.mem_append.mp hb with hb | hb
          · exact h4 b hb
          · simp only [List.mem_singleton] at hb
            exact hb ▸ isDigit_digitChar hd
        · intro _
          cases ds with
          | nil => exact absurd rfl h3
          | cons d ds => exact h5 h0
        · intro hz; omega

theorem printNat_spec (n : Nat) :
    natValue (printNat n) = n ∧ printNat n ≠ [] ∧ (∀ b ∈ printNat n, isDigit b = true)
      ∧ (n ≠ 0 → (printNat n).head? ≠ some (digitChar 0))
      ∧ (n = 0 → printNat n = [digitChar 0]) := by
  obtain ⟨ds, h1, h2, h3, h4, h5, h6⟩ := printNatGo_spec (n + 1) n [] (Nat.lt_succ_self n)
  have hp : printNat n = ds := by rw [printNat, h1, List.append_nil]
  rw [hp]
  exact ⟨h2, h3, h4, h5, h6⟩

@[simp] theorem natValue_printNat (n : Nat) : natValue (printNat n) = n := (printNat_spec n).1

theorem printNat_ne_nil (n : Nat) : printNat n ≠ [] := (printNat_spec n).2.1

theorem isDigit_of_mem_printNat {n : Nat} {b : UInt8} (h : b ∈ printNat n) : isDigit b = true :=
  (printNat_spec n).2.2.1 b h

/-- A numeral determines its number. -/
theorem printNat_injective {m n : Nat} (h : printNat m = printNat n) : m = n := by
  rw [← natValue_printNat m, h, natValue_printNat]

theorem isDigit_iff {b : UInt8} : isDigit b = true ↔ 48 ≤ b.toNat ∧ b.toNat ≤ 57 := by
  simp [isDigit]

/-- Every character of a printed integer is a digit or the sign. -/
theorem mem_printInt {z : Int} {b : UInt8} (h : b ∈ printInt z) :
    isDigit b = true ∨ b = ch '-' := by
  unfold printInt at h
  split at h
  · rcases List.mem_cons.mp h with h | h
    · exact Or.inr h
    · exact Or.inl (isDigit_of_mem_printNat h)
  · exact Or.inl (isDigit_of_mem_printNat h)

theorem printInt_ne_nil (z : Int) : printInt z ≠ [] := by
  unfold printInt
  split
  · simp
  · exact printNat_ne_nil _

/-- A printed integer determines its value. -/
theorem printInt_injective {y z : Int} (h : printInt y = printInt z) : y = z := by
  have minus : ∀ n : Nat, ∀ t, printNat n ≠ ch '-' :: t := by
    intro n t he
    have : isDigit (ch '-') = true := isDigit_of_mem_printNat (n := n) (by rw [he]; simp)
    exact absurd this (by decide)
  unfold printInt at h
  split at h <;> split at h
  · have := printNat_injective (List.cons.inj h).2
    omega
  · exact absurd h.symm (minus _ _)
  · exact absurd h (minus _ _)
  · have := printNat_injective h
    omega

/-! ## Reading what was printed -/

theorem length_printNatGo_le : ∀ (fuel n k : Nat) (acc : Bytes), n < 10 ^ (k + 1) →
    (printNatGo fuel n acc).length ≤ k + 1 + acc.length
  | 0, _, _, _, _ => by simp [printNatGo]
  | fuel + 1, n, 0, acc, h => by
      have h0 : n / 10 = 0 := by omega
      rw [printNatGo, if_pos h0, List.length_cons]
      omega
  | fuel + 1, n, k + 1, acc, h => by
      rw [printNatGo]
      split
      · rw [List.length_cons]
        omega
      · have hlt : n / 10 < 10 ^ (k + 1) := by
          rw [Nat.div_lt_iff_lt_mul (by omega)]
          rwa [Nat.pow_succ] at h
        have ih := length_printNatGo_le fuel (n / 10) k (digitChar (n % 10) :: acc) hlt
        rw [List.length_cons] at ih
        omega

/-- A number below `10 ^ k` has at most `k` digits. -/
theorem length_printNat_le {n k : Nat} (hk : 0 < k) (h : n < 10 ^ k) :
    (printNat n).length ≤ k := by
  obtain ⟨j, rfl⟩ : ∃ j, k = j + 1 := ⟨k - 1, by omega⟩
  have := length_printNatGo_le (n + 1) n j [] h
  simpa [printNat] using this

theorem length_printInt_le {z : Int} (h : z.natAbs < 10 ^ 20) : (printInt z).length ≤ 21 := by
  have hnat := length_printNat_le (by omega) h
  unfold printInt
  split
  · rw [List.length_cons]
    omega
  · omega

theorem zero_not_mem_printInt (z : Int) : (0 : UInt8) ∉ printInt z := by
  intro h
  rcases mem_printInt h with h | h
  · exact absurd h (by decide)
  · exact absurd h (by decide)

theorem isSpace_of_isDigit {b : UInt8} (h : isDigit b = true) : isSpace b = false := by
  rw [isDigit_iff] at h
  have h32 : b ≠ 32 := by
    rintro rfl
    exact absurd h.1 (by decide)
  simp only [isSpace, Bool.or_eq_false_iff, beq_eq_false_iff_ne, Bool.and_eq_false_iff,
    decide_eq_false_iff_not]
  exact ⟨h32, Or.inr (by omega)⟩

section

variable {ds s : Bytes}

/-- In front of digits there is nothing to skip and no sign. -/
theorem digits_begin (hne : ds ≠ []) (hds : ∀ b ∈ ds, isDigit b = true) (s : Bytes) :
    (ds ++ s).dropWhile isSpace = ds ++ s ∧ startsWith (ds ++ s) (str "-") = false
      ∧ startsWith (ds ++ s) (str "+") = false := by
  obtain ⟨d, ds, rfl⟩ := List.exists_cons_of_ne_nil hne
  have hdig : isDigit d = true := hds d (by simp)
  have hsign : ∀ c, isDigit c = false → startsWith (d :: ds ++ s) [c] = false := by
    intro c hc
    have hne : c ≠ d := ne_of_class (f := fun b => !isDigit b) (by simp [hc]) (by simp [hdig])
    simp [hne]
  refine ⟨?_, hsign (ch '-') (by decide), hsign (ch '+') (by decide)⟩
  rw [List.cons_append, List.dropWhile_cons_of_neg (by simp [isSpace_of_isDigit hdig])]

/-- Digits are read up to their end. -/
theorem strtoll_digits (hne : ds ≠ []) (hds : ∀ b ∈ ds, isDigit b = true)
    (hs : ∀ b ∈ s.head?, isDigit b = false) :
    strtoll (ds ++ s) = some (saturate64 (natValue ds)) := by
  obtain ⟨hspace, hminus, hplus⟩ := digits_begin hne hds s
  have htake : (ds ++ s).takeWhile isDigit = ds := (span_token hds hs).1
  unfold strtoll
  simp only [hspace, hminus, hplus, Bool.or_self, Bool.false_eq_true, if_false, htake, if_neg hne]

/-- `%d` reads digits, and stops behind them. -/
theorem scanInt_digits (hne : ds ≠ []) (hds : ∀ b ∈ ds, isDigit b = true)
    (hs : ∀ b ∈ s.head?, isDigit b = false) (hlt : natValue ds < 2 ^ 31) :
    scanInt (ds ++ s) = some ((natValue ds : Int), s) := by
  obtain ⟨hspace, hminus, hplus⟩ := digits_begin hne hds s
  have hdrop : (ds ++ s).dropWhile isDigit = s := (span_token hds hs).2
  unfold scanInt
  simp only [hspace, hminus, hplus, Bool.or_self, Bool.false_eq_true, if_false,
    strtoll_digits hne hds hs, hdrop, Option.map_some]
  congr 2
  unfold toInt32 saturate64
  omega

end

/-- **`strtoll` reads back what was printed**, up to its range. -/
theorem strtoll_printInt (z : Int) {s : Bytes} (hs : ∀ b ∈ s.head?, isDigit b = false) :
    strtoll (printInt z ++ s) = some (saturate64 z) := by
  have hdigits : ∀ b ∈ printNat z.natAbs, isDigit b = true := fun _ => isDigit_of_mem_printNat
  unfold printInt
  split
  · rename_i hneg
    have hdrop : (ch '-' :: (printNat z.natAbs ++ s)).dropWhile isSpace
        = ch '-' :: (printNat z.natAbs ++ s) :=
      List.dropWhile_cons_of_neg (by decide)
    have hminus : startsWith (ch '-' :: (printNat z.natAbs ++ s)) (str "-") = true :=
      startsWith_append [ch '-'] _
    have htake : (printNat z.natAbs ++ s).takeWhile isDigit = printNat z.natAbs :=
      (span_token hdigits hs).1
    unfold strtoll
    rw [List.cons_append]
    simp only [hdrop, hminus, Bool.true_or, if_true, List.drop_succ_cons, List.drop_zero, htake,
      if_neg (printNat_ne_nil _), natValue_printNat]
    congr 2
    omega
  · rename_i hpos
    rw [strtoll_digits (printNat_ne_nil _) hdigits hs, natValue_printNat]
    congr 2
    omega

theorem strtoll_space {b : UInt8} (hb : isSpace b = true) (s : Bytes) :
    strtoll (b :: s) = strtoll s := by
  unfold strtoll
  rw [List.dropWhile_cons_of_pos hb]

theorem strtoll_range {s : Bytes} {z : Int} (h : strtoll s = some z) : -2 ^ 63 ≤ z ∧ z < 2 ^ 63 := by
  unfold strtoll at h
  dsimp only at h
  rw [Option.ite_none_left_eq_some] at h
  rw [← Option.some.inj h.2]
  unfold saturate64
  omega

/-- `atoi` reads back a printed `int`. -/
theorem atoi_printInt {z : Int} {s : Bytes} (hmin : -2 ^ 31 ≤ z) (hmax : z < 2 ^ 31)
    (hs : ∀ b ∈ s.head?, isDigit b = false) : atoi (printInt z ++ s) = z := by
  unfold atoi
  rw [strtoll_printInt z hs, Option.getD_some]
  unfold saturate64 toInt32
  omega

theorem atoi_space {b : UInt8} (hb : isSpace b = true) (s : Bytes) : atoi (b :: s) = atoi s := by
  unfold atoi
  rw [strtoll_space hb]

/-- A byte that is no digit ends a number that has begun. -/
theorem strtoll_append_begun {v : Bytes} {c : UInt8} (hbegun : v.dropWhile isSpace ≠ [])
    (hdigit : isDigit c = false) (s : Bytes) : strtoll (v ++ c :: s) = strtoll v := by
  have hplus : str "+" = [ch '+'] := rfl
  have hminus : str "-" = [ch '-'] := rfl
  have hdrop : (v ++ c :: s).dropWhile isSpace = v.dropWhile isSpace ++ c :: s := by
    rw [List.dropWhile_append, if_neg (by simpa using hbegun)]
  unfold strtoll
  rw [hdrop]
  obtain ⟨b, t, hv⟩ := List.exists_cons_of_ne_nil hbegun
  rw [hv]
  have hhead : ∀ d : UInt8, startsWith (b :: t ++ c :: s) [d] = startsWith (b :: t) [d] :=
    fun _ => rfl
  have hskip : ∀ skip : Bool, ((if skip then (b :: t ++ c :: s).drop 1 else b :: t ++ c :: s)
      : Bytes) = (if skip then (b :: t).drop 1 else b :: t) ++ c :: s := by
    intro skip
    cases skip with
    | false => rfl
    | true => rfl
  dsimp only
  rw [hplus, hminus, hhead, hhead, hskip, takeWhile_append_stop hdigit]

/-- A number that was read up to a byte that ends it is not changed by what follows. -/
theorem strtoll_append_of_some {v : Bytes} {z : Int} {c : UInt8} (h : strtoll (v ++ [c]) = some z)
    (hdigit : isDigit c = false) (s : Bytes) : strtoll (v ++ c :: s) = some z := by
  have hbegun : v.dropWhile isSpace ≠ [] := by
    intro hnil
    -- without the start of a number the byte would have to be one
    unfold strtoll at h
    rw [List.dropWhile_append, hnil] at h
    by_cases hspace : isSpace c = true
    · simp [startsWith, str, hspace] at h
    · simp only [List.isEmpty_nil, if_true, List.dropWhile_cons, hspace] at h
      by_cases hsign : c = ch '-' ∨ c = ch '+'
      · rcases hsign with rfl | rfl
        · exact absurd h (by simp [startsWith, str])
        · exact absurd h (by simp [startsWith, str])
      · rw [not_or] at hsign
        simp [startsWith, str, Ne.symm hsign.1, Ne.symm hsign.2, hdigit] at h
  rw [strtoll_append_begun hbegun hdigit, ← strtoll_append_begun hbegun hdigit [], h]

/-- A byte that is none of a number ends it. -/
theorem strtoll_append_stop {c : UInt8} (hspace : isSpace c = false) (hdigit : isDigit c = false)
    (hsign : c ≠ ch '-' ∧ c ≠ ch '+') (v s : Bytes) : strtoll (v ++ c :: s) = strtoll v := by
  by_cases hbegun : v.dropWhile isSpace = []
  · have hplus : str "+" = [ch '+'] := rfl
    have hminus : str "-" = [ch '-'] := rfl
    unfold strtoll
    rw [dropWhile_append_stop hspace, hbegun]
    simp [hplus, hminus, hsign.1.symm, hsign.2.symm, hdigit]
  · exact strtoll_append_begun hbegun hdigit s

theorem atoi_append_stop {c : UInt8} (hspace : isSpace c = false) (hdigit : isDigit c = false)
    (hsign : c ≠ ch '-' ∧ c ≠ ch '+') (v s : Bytes) : atoi (v ++ c :: s) = atoi v := by
  unfold atoi
  rw [strtoll_append_stop hspace hdigit hsign]

end Lib
