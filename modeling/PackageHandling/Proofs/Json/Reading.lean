import Mathlib.Tactic.IntervalCases
import PackageHandling.Proofs.Json.Written

/-!
# What is written is read

A value whose numbers are whole, and of 64 bits, is read as it was written, wherever it stands
among the values of a document: the main statement is `read?_text`.
-/

namespace PackageHandling
namespace Json

def Closes (r : List Char) : Prop := ∀ c ∈ r.head?, c = ',' ∨ c = ']' ∨ c = '\x7d'

/-! ### Whole numbers -/

theorem digit?_digitChar {d : Nat} (h : d < 10) : digit? (Nat.digitChar d) = some d := by
  interval_cases d <;> rfl

theorem takeDigits_toDigits (n : Nat) (hn : n ≤ Decimal.digitsLimit) (t : List Char) :
    ∃ taken, takeDigits 0 0 (Nat.toDigits 10 n ++ t) = takeDigits n (taken + 1) t := by
  induction n using Nat.strongRecOn generalizing t with
  | ind n ih =>
    by_cases hsmall : n < 10
    · have hpush : Decimal.pushDigit 0 n = some n := by simp [Decimal.pushDigit, hn]
      refine ⟨0, ?_⟩
      rw [Nat.toDigits_of_lt_base hsmall, List.singleton_append, takeDigits,
        digit?_digitChar hsmall]
      simp only [hpush]
    · have hlast : n % 10 < 10 := Nat.mod_lt n (by decide)
      have hpush : Decimal.pushDigit (n / 10) (n % 10) = some n := by
        have hsum : n / 10 * 10 + n % 10 = n := Nat.div_add_mod' n 10
        rw [Decimal.pushDigit, hsum]
        exact if_pos hn
      obtain ⟨taken, htaken⟩ := ih (n / 10) (by omega) (by omega) ((n % 10).digitChar :: t)
      refine ⟨taken + 1, ?_⟩
      rw [Nat.toDigits_of_base_le (by decide) (Nat.not_lt.1 hsmall), List.append_assoc,
        List.singleton_append, htaken, takeDigits, digit?_digitChar hlast]
      simp only [hpush]

theorem head_toDigits_ne_zero (n : Nat) (hn : n ≠ 0) (t : List Char) :
    (Nat.toDigits 10 n ++ t).head? ≠ some '0' := by
  induction n using Nat.strongRecOn generalizing t with
  | ind n ih =>
    by_cases hsmall : n < 10
    · rw [Nat.toDigits_of_lt_base hsmall]
      interval_cases n <;> first | exact absurd rfl hn | simp [Nat.digitChar]
    · rw [Nat.toDigits_of_base_le (by decide) (Nat.not_lt.1 hsmall), List.append_assoc]
      exact ih (n / 10) (by omega) (by omega) _

theorem Closes.digit?_eq_none {c : Char} {r : List Char} (h : Closes (c :: r)) :
    digit? c = none := by
  rcases h c rfl with rfl | rfl | rfl <;> rfl

theorem Closes.takeDigits {r : List Char} (h : Closes r) (n taken : Nat) :
    takeDigits n taken r = (n, taken, r) := by
  cases r with
  | nil => rfl
  | cons c r => rw [Json.takeDigits, h.digit?_eq_none]

theorem Closes.countDigits {r : List Char} (h : Closes r) : countDigits 0 r = (0, r) := by
  cases r with
  | nil => rfl
  | cons c r => simp [Json.countDigits, h.digit?_eq_none]

theorem unsignedNumber_toDigits (negative : Bool) {n : Nat} (hn : n ≤ Decimal.digitsLimit)
    {r : List Char} (hr : Closes r) :
    unsignedNumber negative (Nat.toDigits 10 n ++ r) = afterWhole negative n 0 r := by
  by_cases hzero : n = 0
  · subst hzero
    cases r with
    | nil => rfl
    | cons c r => simp [unsignedNumber, Nat.toDigits_of_lt_base, Nat.digitChar, hr.digit?_eq_none]
  · obtain ⟨taken, htaken⟩ := takeDigits_toDigits n hn r
    have hhead := head_toDigits_ne_zero n hzero r
    rw [unsignedNumber.eq_3 _ _ fun rest h => hhead (by rw [h]; rfl), htaken, hr.takeDigits]
    simp only [hr.countDigits]
    rfl

theorem afterWhole_closes (negative : Bool) {n : Nat} {r : List Char} (hr : Closes r) :
    afterWhole negative n 0 r =
      if !negative then some (.nat n, r)
      else if n = 0 ∨ n > 0x8000000000000000 then
        some (number (Decimal.scaled? true n 0), r)
      else some (.int (-n), r) := by
  have hne : ∀ c, c ≠ ',' → c ≠ ']' → c ≠ '\x7d' → ∀ rest, r = c :: rest → False := by
    rintro c h1 h2 h3 rest rfl
    rcases hr c rfl with h | h | h
    · exact h1 h
    · exact h2 h
    · exact h3 h
  rw [afterWhole.eq_4 _ _ _ _ (hne _ (by decide) (by decide) (by decide))
    (hne _ (by decide) (by decide) (by decide)) (hne _ (by decide) (by decide) (by decide))]
  rfl

/-! ### Values -/

/-- Every number is written as a plain integer that a document keeps exactly, and every part has a
value. -/
inductive Plain : Json → Prop
  | null : Plain .null
  | bool (b : Bool) : Plain (.bool b)
  | int {n : Int} (hlow : -0x8000000000000000 ≤ n) (hhigh : n ≤ 0xFFFFFFFFFFFFFFFF) : Plain (.int n)
  | str (s : String) : Plain (.str s)
  | arr {items : List Json} (h : ∀ v ∈ items, Plain v) : Plain (.arr items)
  | obj {members : List (String × Json)} (h : ∀ m ∈ members, Plain m.2) : Plain (.obj members)

/-- A plain value in which so many containers are nested at most. -/
inductive Regular : Nat → Json → Prop
  | null {room : Nat} : Regular room .null
  | bool {room : Nat} (b : Bool) : Regular room (.bool b)
  | int {room : Nat} {n : Int} (hlow : -0x8000000000000000 ≤ n) (hhigh : n ≤ 0xFFFFFFFFFFFFFFFF) :
      Regular room (.int n)
  | str {room : Nat} (s : String) : Regular room (.str s)
  | arr {room : Nat} {items : List Json} (h : ∀ v ∈ items, Regular room v) :
      Regular (room + 1) (.arr items)
  | obj {room : Nat} {members : List (String × Json)} (h : ∀ m ∈ members, Regular room m.2) :
      Regular (room + 1) (.obj members)

theorem Regular.exact {room : Nat} {v : Json} (h : Regular room v) : Exact v := by
  induction h with
  | null => exact .null
  | bool b => exact .bool b
  | int => exact .int _
  | str s => exact .str s
  | arr _ ih => exact .arr ih
  | obj _ ih => exact .obj ih

/-- A value is read off the text, whatever follows it. -/
def ReadsBack (room : Nat) (v : Json) : Prop :=
  ∀ fuel r, Closes r → v.chars.length ≤ fuel → value room fuel (v.chars ++ r) = some (v, r)

theorem chars_ne_nil {v : Json} (hv : Exact v) : v.chars ≠ [] := by
  obtain ⟨c, rest, hc, -⟩ := head_chars hv []
  rw [List.append_nil] at hc
  rw [hc]
  exact List.cons_ne_nil c rest

theorem fuel_pos {v : Json} (hv : Exact v) {fuel : Nat} (h : v.chars.length ≤ fuel) :
    ∃ left, fuel = left + 1 :=
  Nat.exists_eq_succ_of_ne_zero fun hzero =>
    chars_ne_nil hv (List.eq_nil_of_length_eq_zero (Nat.le_zero.1 (hzero ▸ h)))

theorem readsBack_int (room : Nat) {n : Int} (hlow : -0x8000000000000000 ≤ n)
    (hhigh : n ≤ 0xFFFFFFFFFFFFFFFF) : ReadsBack room (.int n) := by
  intro fuel r hr hfuel
  obtain ⟨left, rfl⟩ := fuel_pos (.int n) hfuel
  have hchars : (Json.int n).chars = numberText (.int n) := rfl
  rw [hchars, numberText_int]
  by_cases hn : 0 ≤ n
  · have hfits : n.toNat ≤ Decimal.digitsLimit := by simp only [Decimal.digitsLimit]; omega
    obtain ⟨d, rest, hd, hdigit⟩ := head?_toDigits n.toNat
    have hne : ∀ c : Char, c.isDigit = false → ∀ t, d :: (rest ++ r) = c :: t → False := by
      rintro c hc t h
      rw [(List.cons.inj h).1, hc] at hdigit
      cases hdigit
    rw [if_pos hn, hd, List.cons_append, value.eq_9 _ _ _ (hne _ rfl) (hne _ rfl) (hne _ rfl)
      (hne _ rfl) (hne _ rfl) (hne _ rfl) (hne _ rfl), ← List.cons_append, ← hd,
      unsignedNumber_toDigits _ hfits hr, afterWhole_closes _ hr, if_pos (by decide)]
    exact congrArg (fun k => some (Json.int k, r)) (Int.toNat_of_nonneg hn)
  · have hfits : (-n).toNat ≤ Decimal.digitsLimit := by simp only [Decimal.digitsLimit]; omega
    have hsmall : ¬ ((-n).toNat = 0 ∨ (-n).toNat > 0x8000000000000000) := by omega
    have hvalue : -((-n).toNat : Int) = n := by omega
    rw [if_neg hn, List.cons_append, value, unsignedNumber_toDigits _ hfits hr,
      afterWhole_closes _ hr, if_neg (by decide), if_neg hsmall, hvalue]

theorem readsBack_str (room : Nat) (s : String) : ReadsBack room (.str s) := by
  intro fuel r hr hfuel
  obtain ⟨left, rfl⟩ := fuel_pos (.str s) hfuel
  have hchars : (Json.str s).chars ++ r = '\x22' :: (s.toList.flatMap escape ++ '\x22' :: r) := by
    simp [chars, quoted]
  rw [hchars, value, stringBody_escaped]
  simp

theorem skipBlanks_chars {v : Json} (hv : Exact v) (t : List Char) :
    skipBlanks (v.chars ++ t) = v.chars ++ t := by
  cases hv with
  | int n =>
    obtain ⟨d, rest, hd, hdigit⟩ := head?_toDigits n.toNat
    have hblank : isBlank d = false := by
      by_contra hblank
      simp only [Bool.not_eq_false, isBlank, Bool.or_eq_true, decide_eq_true_eq] at hblank
      rcases hblank with ((rfl | rfl) | rfl) | rfl <;> cases hdigit
    rw [int, chars, numberText_int]
    split
    · rw [hd]
      exact List.dropWhile_cons_of_neg (by simp [hblank])
    · rfl
  | bool b => cases b <;> rfl
  | _ => rfl

section Joined

variable {α : Type} (write : α → List Char) (close : Char)

theorem afterFirst_closes {close : Char} (hclose : close = ']' ∨ close = '\x7d') (r : List Char)
    (rest : List α) : Closes (afterFirst write close r rest) := by
  intro c hc
  cases rest with
  | nil =>
    obtain rfl := Option.some.inj hc
    exact .inr hclose
  | cons a rest =>
    obtain rfl := Option.some.inj hc
    exact .inl rfl

theorem length_joined (r : List Char) (as : List α) :
    r.length < (joined write close r as).length := by
  induction as with
  | nil => exact Nat.lt_succ_self _
  | cons a as ih =>
    cases as with
    | nil => simp [joined]; omega
    | cons b as => simp [joined] at ih ⊢; omega

theorem length_afterFirst (r : List Char) (rest : List α) :
    r.length < (afterFirst write close r rest).length := by
  cases rest with
  | nil => exact Nat.lt_succ_self _
  | cons a rest => exact Nat.lt_succ_of_lt (length_joined write close r (a :: rest))

theorem afterFirst_cons (r : List Char) (a : α) (rest : List α) :
    afterFirst write close r (a :: rest) = ',' :: joined write close r (a :: rest) := rfl

end Joined

theorem skipBlanks_items {v : Json} (hv : Exact v) (rest : List Json) (r : List Char) :
    skipBlanks (joined chars ']' r (v :: rest)) = joined chars ']' r (v :: rest) := by
  rw [joined_cons]
  exact skipBlanks_chars hv _

theorem skipBlanks_members (m : String × Json) (rest : List (String × Json)) (r : List Char) :
    skipBlanks (joined memberText '\x7d' r (m :: rest)) =
      joined memberText '\x7d' r (m :: rest) := by
  rw [joined_cons]
  rfl

/-- Elements that are read back make up a list that is read back. -/
theorem elements_joined {room : Nat} {items : List Json} (hne : items ≠ [])
    (hexact : ∀ v ∈ items, Exact v) (h : ∀ v ∈ items, ReadsBack room v) (r : List Char)
    {fuel : Nat} (hfuel : (joined chars ']' r items).length ≤ fuel + r.length) :
    elements room fuel (joined chars ']' r items) = some (items, r) := by
  induction items generalizing fuel with
  | nil => exact absurd rfl hne
  | cons v rest ih =>
    have hlonger := length_afterFirst chars ']' r rest
    rw [joined_cons, List.length_append] at hfuel
    obtain ⟨left, rfl⟩ := Nat.exists_eq_succ_of_ne_zero (n := fuel) (by omega)
    have hvalue := h v List.mem_cons_self left _ (afterFirst_closes chars (.inl rfl) r rest)
      (by omega)
    rw [joined_cons, elements, hvalue]
    cases rest with
    | nil => rfl
    | cons w rest =>
      rw [afterFirst_cons, List.length_cons] at hfuel
      have hfits : (joined chars ']' r (w :: rest)).length ≤ left + r.length := by omega
      have hrest := ih (List.cons_ne_nil w rest) (fun u hu => hexact u (List.mem_cons_of_mem _ hu))
        (fun u hu => h u (List.mem_cons_of_mem _ hu)) hfits
      have hblanks := skipBlanks_items (hexact w (List.mem_cons_of_mem _ List.mem_cons_self)) rest r
      have hcomma : skipBlanks (afterFirst chars ']' r (w :: rest)) =
          ',' :: joined chars ']' r (w :: rest) := rfl
      simp [hcomma, hblanks, hrest]

theorem memberList_joined {room : Nat} {members : List (String × Json)} (hne : members ≠ [])
    (hexact : ∀ m ∈ members, Exact m.2) (h : ∀ m ∈ members, ReadsBack room m.2) (r : List Char)
    {fuel : Nat} (hfuel : (joined memberText '\x7d' r members).length ≤ fuel + r.length) :
    memberList room fuel (joined memberText '\x7d' r members) = some (some members, r) := by
  induction members generalizing fuel with
  | nil => exact absurd rfl hne
  | cons m rest ih =>
    obtain ⟨key, v⟩ := m
    have hlonger := length_afterFirst memberText '\x7d' r rest
    have hlength : v.chars.length ≤ (memberText (key, v)).length := by
      simp [memberText]
      omega
    rw [joined_cons, List.length_append] at hfuel
    obtain ⟨left, rfl⟩ := Nat.exists_eq_succ_of_ne_zero (n := fuel) (by omega)
    have hvalue := h (key, v) List.mem_cons_self left _
      (afterFirst_closes memberText (.inr rfl) r rest) (by simp only; omega)
    have hmember : memberText (key, v) ++ afterFirst memberText '\x7d' r rest =
        '\x22' :: (key.toList.flatMap escape ++ '\x22' ::
          ':' :: (v.chars ++ afterFirst memberText '\x7d' r rest)) := by
      simp [memberText, quoted]
    have hcolon : skipBlanks (':' :: (v.chars ++ afterFirst memberText '\x7d' r rest)) =
        ':' :: (v.chars ++ afterFirst memberText '\x7d' r rest) := rfl
    rw [joined_cons, hmember, memberList, stringBody_escaped]
    simp only [Option.bind_eq_bind, Option.bind_some, hcolon,
      skipBlanks_chars (hexact (key, v) List.mem_cons_self), hvalue]
    cases rest with
    | nil => simp [afterFirst, skipBlanks, isBlank]
    | cons m' rest =>
      rw [afterFirst_cons, List.length_cons] at hfuel
      have hfits : (joined memberText '\x7d' r (m' :: rest)).length ≤ left + r.length := by omega
      have hrest := ih (List.cons_ne_nil m' rest)
        (fun u hu => hexact u (List.mem_cons_of_mem _ hu))
        (fun u hu => h u (List.mem_cons_of_mem _ hu)) hfits
      have hcomma : skipBlanks (afterFirst memberText '\x7d' r (m' :: rest)) =
          ',' :: joined memberText '\x7d' r (m' :: rest) := rfl
      simp [hcomma, skipBlanks_members, hrest]

theorem readsBack_arr {room : Nat} {items : List Json} (hexact : ∀ v ∈ items, Exact v)
    (h : ∀ v ∈ items, ReadsBack room v) : ReadsBack (room + 1) (.arr items) := by
  intro fuel r hr hfuel
  obtain ⟨left, rfl⟩ := fuel_pos (.arr hexact) hfuel
  cases items with
  | nil => rfl
  | cons v rest =>
    have hchars : (Json.arr (v :: rest)).chars ++ r = '[' :: joined chars ']' r (v :: rest) := by
      rw [← itemChars_append]
      simp [chars]
    have hfits : (joined chars ']' r (v :: rest)).length ≤ left + r.length := by
      have hlength := congrArg List.length hchars
      simp only [List.length_append, List.length_cons] at hlength
      omega
    have hread := elements_joined (List.cons_ne_nil v rest) hexact h r hfits
    rw [hchars, value, skipBlanks_items (hexact v List.mem_cons_self)]
    split
    · next t hclosed =>
      rw [joined_cons] at hclosed
      exact absurd (congrArg List.head? hclosed)
        (head_chars_ne_bracket (hexact v List.mem_cons_self) _)
    · simp [hread, inRoom]

theorem readsBack_obj {room : Nat} {members : List (String × Json)}
    (hexact : ∀ m ∈ members, Exact m.2) (h : ∀ m ∈ members, ReadsBack room m.2) :
    ReadsBack (room + 1) (.obj members) := by
  intro fuel r hr hfuel
  obtain ⟨left, rfl⟩ := fuel_pos (.obj hexact) hfuel
  cases members with
  | nil => rfl
  | cons m rest =>
    have hchars : (Json.obj (m :: rest)).chars ++ r =
        '\x7b' :: joined memberText '\x7d' r (m :: rest) := by
      rw [← memberChars_append]
      simp [chars]
    have hfits : (joined memberText '\x7d' r (m :: rest)).length ≤ left + r.length := by
      have hlength := congrArg List.length hchars
      simp only [List.length_append, List.length_cons] at hlength
      omega
    have hread := memberList_joined (List.cons_ne_nil m rest) hexact h r hfits
    rw [hchars, value, skipBlanks_members]
    split
    · next t hclosed =>
      rw [joined_cons] at hclosed
      cases congrArg List.head? hclosed
    · simp [hread, inRoom]

/-- A regular value is read as it was written where there is room for it. -/
theorem Regular.readsBack {room : Nat} {v : Json} (h : Regular room v) : ReadsBack room v := by
  induction h with
  | null =>
    intro fuel r hr hfuel
    obtain ⟨left, rfl⟩ := fuel_pos .null hfuel
    rfl
  | bool b =>
    intro fuel r hr hfuel
    obtain ⟨left, rfl⟩ := fuel_pos (.bool b) hfuel
    cases b <;> rfl
  | int hlow hhigh => exact readsBack_int _ hlow hhigh
  | str s => exact readsBack_str _ s
  | arr hitems ih => exact readsBack_arr (fun v hv => (hitems v hv).exact) ih
  | obj hmembers ih => exact readsBack_obj (fun m hm => (hmembers m hm).exact) ih

theorem read?_text {v : Json} (h : Regular nestingLimit v) : read? v.text = some v := by
  have hread := h.readsBack (v.chars.length + 1) [] (fun c hc => by cases hc) (Nat.le_succ _)
  have hblanks := skipBlanks_chars h.exact []
  rw [List.append_nil] at hread hblanks
  simp only [read?, readNested?, text, String.toList_ofList, hblanks, hread]
  rfl

end Json
end PackageHandling
