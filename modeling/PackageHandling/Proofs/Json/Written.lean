import Mathlib.Tactic.SplitIfs
import PackageHandling.Json.Text
import PackageHandling.Json.Reader

/-!
# Written forms tell values apart

Where one written value ends and what it is can be read off the text, so two values whose numbers
are whole never share one written form: the main statement is `text_injective`.
-/

namespace PackageHandling
namespace Json

/-! ### Texts -/

/-- A character is written as itself, with a letter after a backslash, or by its code. -/
theorem escape_cases (c : Char) :
    (escape c = [c] ∧ c ≠ '\x22' ∧ c ≠ '\x5c' ∧ 32 ≤ c.toNat) ∨
      (∃ letter, escape c = ['\x5c', letter] ∧ letter ≠ 'u' ∧ unescape? letter = some c) ∨
      (escape c = ['\x5c', 'u', '0', '0', hexDigit (c.toNat / 16), hexDigit (c.toNat % 16)] ∧
        c.toNat < 32) := by
  generalize he : escape c = written
  rw [escape] at he
  -- seven characters have a letter of their own
  split at he
  · next h => exact .inr (.inl ⟨_, he.symm, by decide, by rw [h]; rfl⟩)
  split at he
  · next h => exact .inr (.inl ⟨_, he.symm, by decide, by rw [h]; rfl⟩)
  split at he
  · next h => exact .inr (.inl ⟨_, he.symm, by decide, by rw [h]; rfl⟩)
  split at he
  · next h => exact .inr (.inl ⟨_, he.symm, by decide, by rw [h]; rfl⟩)
  split at he
  · next h => exact .inr (.inl ⟨_, he.symm, by decide, by rw [h]; rfl⟩)
  split at he
  · next h => exact .inr (.inl ⟨_, he.symm, by decide, by rw [h]; rfl⟩)
  split at he
  · next h => exact .inr (.inl ⟨_, he.symm, by decide, by rw [h]; rfl⟩)
  split at he
  · next hlt => exact .inr (.inr ⟨he.symm, hlt⟩)
  · next h1 h2 _ _ _ _ _ hlow => exact .inl ⟨he.symm, h1, h2, Nat.not_lt.1 hlow⟩

theorem hex4?_hexDigit :
    ∀ n < 32, hex4? '0' '0' (hexDigit (n / 16)) (hexDigit (n % 16)) = some n := by
  decide

theorem stringBody_escape (acc : List Char) (c : Char) (r : List Char) :
    stringBody acc true none (escape c ++ r) = stringBody (c :: acc) true none r := by
  rcases escape_cases c with ⟨he, hquote, hslash, hlow⟩ | ⟨letter, he, hu, hletter⟩ | ⟨he, hlt⟩
  · have hplain : ¬ c.toNat < 32 := Nat.not_lt.2 hlow
    rw [he, List.cons_append, List.nil_append,
      stringBody.eq_5 _ _ _ _ _ hquote (fun _ _ _ _ _ h => absurd h hslash)
        (fun _ _ h => absurd h hslash), if_neg hplain]
    rfl
  · rw [he, List.cons_append, List.cons_append, List.nil_append,
      stringBody.eq_4 _ _ _ _ _ (by simp [hu]), hletter]
    rfl
  · have hchar : Unit16.ofNat c.toNat = .char c := by
      have hhigh : isHighHalf c.toNat = false := by
        simp only [isHighHalf, Bool.and_eq_false_iff, decide_eq_false_iff_not]
        omega
      have hlow : isLowHalf c.toNat = false := by
        simp only [isLowHalf, Bool.and_eq_false_iff, decide_eq_false_iff_not]
        omega
      simp [Unit16.ofNat, hhigh, hlow]
    simp only [he, List.cons_append, List.nil_append]
    rw [stringBody, hex4?_hexDigit c.toNat hlt]
    simp only [hchar]

theorem stringBody_escaped (acc cs r : List Char) :
    stringBody acc true none (cs.flatMap escape ++ '\x22' :: r) =
      some (some (String.ofList (acc.reverse ++ cs)), r) := by
  induction cs generalizing acc with
  | nil => simp [stringBody]
  | cons c cs ih =>
    rw [List.flatMap_cons, List.append_assoc, stringBody_escape, ih]
    simp

theorem quoted_append_inj {s t : String} {r r' : List Char} (h : quoted s ++ r = quoted t ++ r') :
    s = t ∧ r = r' := by
  have hbody :
      s.toList.flatMap escape ++ '\x22' :: r = t.toList.flatMap escape ++ '\x22' :: r' := by
    simpa [quoted] using h
  have hread := congrArg (stringBody [] true none) hbody
  simpa [stringBody_escaped] using hread

/-! ### Whole numbers -/

def Ends (r : List Char) : Prop := ∀ c ∈ r.head?, c.isDigit = false

theorem takeWhile_digits (n : Nat) {r : List Char} (hr : Ends r) :
    (Nat.toDigits 10 n ++ r).takeWhile Char.isDigit = Nat.toDigits 10 n := by
  have hdigits : ∀ c ∈ Nat.toDigits 10 n, c.isDigit = true := fun c hc =>
    Nat.isDigit_of_mem_toDigits (by decide) (by decide) hc
  have hrest : r.takeWhile Char.isDigit = [] := by
    cases r with
    | nil => rfl
    | cons c r => exact List.takeWhile_cons_of_neg (by simp [hr c rfl])
  rw [List.takeWhile_append_of_pos hdigits, hrest, List.append_nil]

theorem digits_append_inj {n m : Nat} {r r' : List Char} (hr : Ends r) (hr' : Ends r')
    (h : Nat.toDigits 10 n ++ r = Nat.toDigits 10 m ++ r') : n = m ∧ r = r' := by
  have hdigits : Nat.toDigits 10 n = Nat.toDigits 10 m := by
    rw [← takeWhile_digits n hr, h, takeWhile_digits m hr']
  have hvalue := congrArg (Nat.ofDigitChars 10 · 0) hdigits
  simp only [Nat.ofDigitChars_ten_toDigits] at hvalue
  exact ⟨hvalue, List.append_cancel_left (hdigits ▸ h)⟩

theorem numberText_int (n : Int) :
    numberText (.int n) =
      if 0 ≤ n then Nat.toDigits 10 n.toNat else '-' :: Nat.toDigits 10 (-n).toNat := by
  rw [numberText, Int.toString_eq_repr, Int.repr_eq_if]
  split
  · rw [Nat.toList_repr]
  · rw [String.toList_append, Nat.toList_repr]
    rfl

theorem head?_toDigits (n : Nat) : ∃ d rest, Nat.toDigits 10 n = d :: rest ∧ d.isDigit = true := by
  cases hdigits : Nat.toDigits 10 n with
  | nil => exact absurd hdigits Nat.toDigits_ne_nil
  | cons d rest =>
    exact ⟨d, rest, rfl, Nat.isDigit_of_mem_toDigits (by decide) (by decide)
      (hdigits ▸ List.mem_cons_self)⟩

theorem int_append_inj {n m : Int} {r r' : List Char} (hr : Ends r) (hr' : Ends r')
    (h : numberText (.int n) ++ r = numberText (.int m) ++ r') : n = m ∧ r = r' := by
  rw [numberText_int, numberText_int] at h
  obtain ⟨d, rest, hd, hdigit⟩ := head?_toDigits n.toNat
  obtain ⟨d', rest', hd', hdigit'⟩ := head?_toDigits m.toNat
  -- a sign on one side only stands against a digit on the other
  split_ifs at h with hn hm hm
  · obtain ⟨heq, hrest⟩ := digits_append_inj hr hr' h
    exact ⟨by omega, hrest⟩
  · simp only [hd, List.cons_append, List.cons.injEq] at h
    rw [h.1] at hdigit
    cases hdigit
  · simp only [hd', List.cons_append, List.cons.injEq] at h
    rw [← h.1] at hdigit'
    cases hdigit'
  · obtain ⟨heq, hrest⟩ := digits_append_inj hr hr' (List.cons.inj h).2
    exact ⟨by omega, hrest⟩

/-! ### Values -/

/-- Every number in it is whole, and every part has a value. -/
inductive Exact : Json → Prop
  | null : Exact .null
  | bool (b : Bool) : Exact (.bool b)
  | int (n : Int) : Exact (.int n)
  | str (s : String) : Exact (.str s)
  | arr {items : List Json} (h : ∀ v ∈ items, Exact v) : Exact (.arr items)
  | obj {members : List (String × Json)} (h : ∀ m ∈ members, Exact m.2) : Exact (.obj members)

/-- A value is told from those of other shapes by its first character. -/
inductive Shape
  | null | flag | number | text | array | object
  deriving DecidableEq

def Shape.ofChar (c : Char) : Shape :=
  if c = 'n' then null
  else if c = 't' ∨ c = 'f' then flag
  else if c = '\x22' then text
  else if c = '[' then array
  else if c = '\x7b' then object
  else number

def shape : Json → Shape
  | .null => .null
  | .bool _ => .flag
  | .str _ => .text
  | .arr _ => .array
  | .obj _ => .object
  | .num _ | .unreadable => .number

theorem Shape.ofChar_digit {c : Char} (h : c.isDigit = true) : ofChar c = number := by
  have hne : ∀ d : Char, d.isDigit = false → c ≠ d := fun d hd hcd => by simp [hcd, hd] at h
  simp [ofChar, hne]

theorem head_chars {v : Json} (hv : Exact v) (r : List Char) :
    ∃ c rest, v.chars ++ r = c :: rest ∧ Shape.ofChar c = v.shape := by
  cases hv with
  | null => exact ⟨_, _, rfl, rfl⟩
  | bool b => cases b <;> exact ⟨_, _, rfl, rfl⟩
  | str s => exact ⟨_, _, rfl, rfl⟩
  | arr h => exact ⟨_, _, rfl, rfl⟩
  | obj h => exact ⟨_, _, rfl, rfl⟩
  | int n =>
    rw [int, chars, numberText_int]
    split
    · obtain ⟨d, rest, hd, hdigit⟩ := head?_toDigits n.toNat
      exact ⟨d, rest ++ r, by rw [hd]; rfl, Shape.ofChar_digit hdigit⟩
    · exact ⟨_, _, rfl, rfl⟩

theorem shape_eq {v w : Json} (hv : Exact v) (hw : Exact w) {r r' : List Char}
    (h : v.chars ++ r = w.chars ++ r') : v.shape = w.shape := by
  obtain ⟨c, rest, hc, hshape⟩ := head_chars hv r
  obtain ⟨c', rest', hc', hshape'⟩ := head_chars hw r'
  have hcc : c = c' := (List.cons.inj (hc ▸ hc' ▸ h)).1
  rw [← hshape, ← hshape', hcc]

/-! ### Lists with commas -/

section Joined

variable {α : Type} (write : α → List Char) (close : Char)

/-- Written elements with commas between them, the closing character and what follows it. -/
def joined (r : List Char) : List α → List Char
  | [] => close :: r
  | [a] => write a ++ close :: r
  | a :: rest => write a ++ ',' :: joined r rest

def afterFirst (r : List Char) (rest : List α) : List Char :=
  if rest.isEmpty then close :: r else ',' :: joined write close r rest

theorem joined_cons (r : List Char) (a : α) (rest : List α) :
    joined write close r (a :: rest) = write a ++ afterFirst write close r rest := by
  cases rest <;> rfl

theorem afterFirst_ends (hclose : close.isDigit = false) (r : List Char) (rest : List α) :
    Ends (afterFirst write close r rest) := by
  intro c hc
  cases rest with
  | nil =>
    obtain rfl := Option.some.inj hc
    exact hclose
  | cons a rest =>
    obtain rfl := Option.some.inj hc
    rfl

variable {write close}

/-- If elements can be told apart and from the closing character, then so can lists of them. -/
theorem joined_inj (hclose : close.isDigit = false) (hcomma : close ≠ ',') {as bs : List α}
    (hhead : ∀ a, a ∈ as ∨ a ∈ bs → ∀ t, (write a ++ t).head? ≠ some close)
    (hwrite : ∀ a ∈ as, ∀ b ∈ bs, ∀ t t', Ends t → Ends t' → write a ++ t = write b ++ t' →
      a = b ∧ t = t')
    {r r' : List Char} (h : joined write close r as = joined write close r' bs) :
    as = bs ∧ r = r' := by
  induction as generalizing bs with
  | nil =>
    cases bs with
    | nil => exact ⟨rfl, (List.cons.inj h).2⟩
    | cons b bs =>
      rw [joined_cons] at h
      exact absurd (congrArg List.head? h).symm (hhead b (.inr List.mem_cons_self) _)
  | cons a as ih =>
    cases bs with
    | nil =>
      rw [joined_cons] at h
      exact absurd (congrArg List.head? h) (hhead a (.inl List.mem_cons_self) _)
    | cons b bs =>
      rw [joined_cons, joined_cons] at h
      obtain ⟨rfl, hrest⟩ := hwrite a List.mem_cons_self b List.mem_cons_self _ _
        (afterFirst_ends write close hclose r as) (afterFirst_ends write close hclose r' bs) h
      cases as with
      | nil =>
        cases bs with
        | nil => exact ⟨rfl, (List.cons.inj hrest).2⟩
        | cons b' bs => exact absurd (List.cons.inj hrest).1 hcomma
      | cons a' as =>
        cases bs with
        | nil => exact absurd (List.cons.inj hrest).1.symm hcomma
        | cons b' bs =>
          obtain ⟨htail, hr⟩ := ih
            (fun c hc t => hhead c (hc.imp (List.mem_cons_of_mem _) (List.mem_cons_of_mem _)) t)
            (fun c hc d hd => hwrite c (List.mem_cons_of_mem _ hc) d (List.mem_cons_of_mem _ hd))
            (List.cons.inj hrest).2
          exact ⟨congrArg _ htail, hr⟩

end Joined

def memberText (m : String × Json) : List Char := quoted m.1 ++ ':' :: m.2.chars

theorem itemChars_append (items : List Json) (r : List Char) :
    itemChars items ++ ']' :: r = joined chars ']' r items := by
  induction items with
  | nil => rfl
  | cons v rest ih =>
    cases rest with
    | nil => rfl
    | cons w rest =>
      rw [joined, ← ih, itemChars]
      · simp
      · simp
      · simp

theorem memberChars_append (members : List (String × Json)) (r : List Char) :
    memberChars members ++ '\x7d' :: r = joined memberText '\x7d' r members := by
  induction members with
  | nil => rfl
  | cons m rest ih =>
    obtain ⟨k, v⟩ := m
    cases rest with
    | nil => simp [memberChars, joined, memberText]
    | cons m' rest =>
      rw [joined, ← ih, memberText, memberChars]
      · simp
      · simp
      · simp

theorem head_chars_ne_bracket {v : Json} (hv : Exact v) (t : List Char) :
    (v.chars ++ t).head? ≠ some ']' := by
  cases hv with
  | int n =>
    obtain ⟨d, rest, hd, hdigit⟩ := head?_toDigits n.toNat
    rw [int, chars, numberText_int]
    split
    · rw [hd]
      rintro hhead
      rw [Option.some.inj hhead] at hdigit
      cases hdigit
    · simp
  | bool b => cases b <;> simp [chars]
  | _ => simp [chars, quoted]

theorem memberText_append_inj {m m' : String × Json} {t t' : List Char}
    (hvalue : m.2.chars ++ t = m'.2.chars ++ t' → m.2 = m'.2 ∧ t = t')
    (h : memberText m ++ t = memberText m' ++ t') : m = m' ∧ t = t' := by
  simp only [memberText, List.append_assoc, List.cons_append] at h
  obtain ⟨hkey, hrest⟩ := quoted_append_inj h
  obtain ⟨hv, ht⟩ := hvalue (List.cons.inj hrest).2
  exact ⟨Prod.ext hkey hv, ht⟩

/-- Where one written value ends and what it is can be read off the text. -/
theorem chars_append_inj {v : Json} (hv : Exact v) :
    ∀ {w : Json} {r r' : List Char}, Exact w → Ends r → Ends r' → v.chars ++ r = w.chars ++ r' →
      v = w ∧ r = r' := by
  -- the first characters agree, so both values are of one shape
  induction hv with
  | null =>
    intro w r r' hw hr hr' h
    have hs := shape_eq .null hw h
    cases hw with
    | null => exact ⟨rfl, List.append_cancel_left h⟩
    | _ => cases hs
  | bool b =>
    intro w r r' hw hr hr' h
    have hs := shape_eq (.bool b) hw h
    cases hw with
    | bool b' =>
      obtain rfl : b = b' := by
        cases b <;> cases b' <;> first | rfl | cases (List.cons.inj h).1
      exact ⟨rfl, List.append_cancel_left h⟩
    | _ => cases hs
  | int n =>
    intro w r r' hw hr hr' h
    have hs := shape_eq (.int n) hw h
    cases hw with
    | int m =>
      obtain ⟨rfl, hrest⟩ := int_append_inj hr hr' h
      exact ⟨rfl, hrest⟩
    | _ => cases hs
  | str s =>
    intro w r r' hw hr hr' h
    have hs := shape_eq (.str s) hw h
    cases hw with
    | str t =>
      obtain ⟨rfl, hrest⟩ := quoted_append_inj h
      exact ⟨rfl, hrest⟩
    | _ => cases hs
  | @arr items hitems ih =>
    intro w r r' hw hr hr' h
    have hs := shape_eq (.arr hitems) hw h
    cases hw with
    | @arr items' hitems' =>
      have hlists : joined chars ']' r items = joined chars ']' r' items' := by
        rw [← itemChars_append, ← itemChars_append]
        simpa [chars] using h
      obtain ⟨rfl, hrest⟩ := joined_inj (by decide) (by decide)
        (fun v hv t => head_chars_ne_bracket (hv.elim (hitems v) (hitems' v)) t)
        (fun v hv w hw t t' ht ht' => ih v hv (hitems' w hw) ht ht') hlists
      exact ⟨rfl, hrest⟩
    | _ => cases hs
  | @obj members hmembers ih =>
    intro w r r' hw hr hr' h
    have hs := shape_eq (.obj hmembers) hw h
    cases hw with
    | @obj members' hmembers' =>
      have hlists : joined memberText '\x7d' r members = joined memberText '\x7d' r' members' := by
        rw [← memberChars_append, ← memberChars_append]
        simpa [chars] using h
      obtain ⟨rfl, hrest⟩ := joined_inj (by decide) (by decide)
        (fun m _ t => by simp [memberText, quoted])
        (fun m hm m' hm' t t' ht ht' =>
          memberText_append_inj (ih m hm (hmembers' m' hm') ht ht')) hlists
      exact ⟨rfl, hrest⟩
    | _ => cases hs

theorem text_injective {v w : Json} (hv : Exact v) (hw : Exact w) (h : v.text = w.text) :
    v = w := by
  have hends : Ends [] := fun c hc => by cases hc
  refine (chars_append_inj hv hw hends hends ?_).1
  rw [List.append_nil, List.append_nil]
  exact String.ofList_injective h

end Json
end PackageHandling
