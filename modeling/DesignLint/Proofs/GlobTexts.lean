import DesignLint.File.Glob
import Mathlib.Data.List.TakeWhile
import Mathlib.Tactic

/-! Which texts a glob pattern admits. The tokens of a pattern are matched one after the other, so two lists
of tokens match a text that is cut into a part for each. A pattern with a slash and a star put behind it
reads as before and then goes on: it admits what the pattern admits up to some slash. -/

namespace DesignLint.Glob

section Accepts

variable {t : GlobToken} {ts us : List GlobToken} {s : List Char}

theorem ends_eq_tails (s : List Char) : ends s = s.tails := by
  induction s with
  | nil => rfl
  | cons c s ih => rw [ends, ih, List.tails]

/-- A star takes any start of the text. -/
theorem accepts_star : accepts (.anyText :: ts) s = true ↔ ∃ a b, s = a ++ b ∧ accepts ts b = true := by
  rw [accepts, List.any_eq_true]
  constructor
  · rintro ⟨b, hb, h⟩
    rw [ends_eq_tails, List.mem_tails] at hb
    obtain ⟨a, rfl⟩ := hb
    exact ⟨a, b, rfl, h⟩
  · rintro ⟨a, b, rfl, h⟩
    exact ⟨b, by rw [ends_eq_tails, List.mem_tails]; exact List.suffix_append a b, h⟩

/-- Every other token takes one character. -/
theorem accepts_cons (ht : t ≠ .anyText) :
    accepts (t :: ts) s = true ↔ ∃ c rest, s = c :: rest ∧ t.holds c = true ∧ accepts ts rest = true := by
  cases t with
  | anyText => exact absurd rfl ht
  | _ => cases s <;> simp [accepts]

theorem accepts_append : accepts (ts ++ us) s = true ↔
    ∃ a b, s = a ++ b ∧ accepts ts a = true ∧ accepts us b = true := by
  induction ts generalizing s with
  | nil => simp [accepts]
  | cons t ts ih =>
    rw [List.cons_append]
    by_cases ht : t = .anyText
    · subst ht
      simp only [accepts_star, ih]
      constructor
      · rintro ⟨a, _, rfl, b, d, rfl, hb, hd⟩
        exact ⟨a ++ b, d, (List.append_assoc a b d).symm, ⟨a, b, rfl, hb⟩, hd⟩
      · rintro ⟨_, d, rfl, ⟨a, b, rfl, hb⟩, hd⟩
        exact ⟨a, b ++ d, List.append_assoc a b d, b, d, rfl, hb, hd⟩
    · simp only [accepts_cons ht, ih]
      constructor
      · rintro ⟨c, _, rfl, hc, a, b, rfl, ha, hb⟩
        exact ⟨c :: a, b, rfl, ⟨c, a, rfl, hc, ha⟩, hb⟩
      · rintro ⟨_, b, rfl, ⟨c, a, rfl, hc, ha⟩, hb⟩
        exact ⟨c, a ++ b, rfl, hc, a, b, rfl, ha, hb⟩

/-- Without a star there is one character for each token. -/
theorem accepts_iff_forall₂ (h : .anyText ∉ ts) :
    accepts ts s = true ↔ List.Forall₂ (fun t c => t.holds c = true) ts s := by
  induction ts generalizing s with
  | nil => simp [accepts]
  | cons t ts ih =>
    rw [List.mem_cons, not_or] at h
    simp only [accepts_cons (Ne.symm h.1), ih h.2, List.forall₂_cons_left_iff]
    constructor
    · rintro ⟨c, rest, rfl, hc, hrest⟩
      exact ⟨c, rest, hc, hrest, rfl⟩
    · rintro ⟨c, rest, hc, hrest, rfl⟩
      exact ⟨c, rest, rfl, hc, hrest⟩

end Accepts

section Tokens

theorem lead_append {x : Char} (hx : x ≠ '/') (s : List Char) :
    ((s ++ ['/', '*']).takeWhile (· == x)).take 1 = (s.takeWhile (· == x)).take 1 := by
  cases s with
  | nil => simp [Ne.symm hx]
  | cons c s => by_cases hc : c = x <;> simp [hc]

theorem lead_length_le (p : Char → Bool) (s : List Char) : ((s.takeWhile p).take 1).length ≤ s.length :=
  (List.length_take_le' _ _).trans (List.takeWhile_prefix p).length_le

theorem takeWhile_length_lt {s : List Char} (h : s.contains ']' = true) :
    (s.takeWhile (· != ']')).length < s.length := by
  refine lt_of_le_of_ne (List.takeWhile_prefix _).length_le fun hlength => ?_
  have hall := List.takeWhile_eq_self_iff.1 ((List.takeWhile_prefix _).eq_of_length hlength)
  exact absurd (hall ']' (by simpa using h)) (by decide)

/-- A bracket that was not closed is not closed by what comes behind. -/
theorem setBody?_append (s : List Char) : setBody? (s ++ ['/', '*']) = setBody? s := by
  unfold setBody?
  dsimp only
  rw [lead_append (by decide), List.drop_append_of_le_length (lead_length_le _ s), lead_append (by decide),
    List.drop_append_of_le_length (lead_length_le _ _)]
  generalize List.drop _ (List.drop _ s) = rest
  have hcontains : (rest ++ ['/', '*']).contains ']' = rest.contains ']' := by simp
  rw [hcontains]
  split_ifs with hclosed
  · rw [List.takeWhile_append, if_neg (takeWhile_length_lt hclosed).ne]
  · rfl

theorem setBody?_length {s body : List Char} (h : setBody? s = some body) : body.length < s.length := by
  unfold setBody? at h
  dsimp only at h
  have hmark := lead_length_le (· == '!') s
  generalize (s.takeWhile (· == '!')).take 1 = mark at h hmark
  have hfirst := lead_length_le (· == ']') (s.drop mark.length)
  generalize ((s.drop mark.length).takeWhile (· == ']')).take 1 = first at h hfirst
  split_ifs at h with hclosed
  have hlt := takeWhile_length_lt hclosed
  obtain rfl := Option.some.inj h
  simp only [List.length_append, List.length_drop] at hfirst hlt ⊢
  omega

theorem go_append (s : List Char) {skip : Nat} (hskip : skip ≤ s.length) :
    tokens.go skip (s ++ ['/', '*']) = tokens.go skip s ++ [.char '/', .anyText] := by
  induction s generalizing skip with
  | nil =>
    obtain rfl : skip = 0 := Nat.le_zero.1 hskip
    rfl
  | cons c s ih =>
    cases skip with
    | succ skip => exact ih (Nat.le_of_succ_le_succ hskip)
    | zero =>
      simp only [List.cons_append, tokens.go, setBody?_append]
      split_ifs with hstar hone hset
      · rw [ih (Nat.zero_le _)]; rfl
      · rw [ih (Nat.zero_le _)]; rfl
      · cases hbody : setBody? s with
        | none => simp only [ih (Nat.zero_le _)]; rfl
        | some body => simp only [ih (setBody?_length hbody)]; rfl
      · rw [ih (Nat.zero_le _)]; rfl

theorem tokens_append (s : List Char) : tokens (s ++ ['/', '*']) = tokens s ++ [.char '/', .anyText] :=
  go_append s (Nat.zero_le _)

/-- A pattern that goes on behind a slash admits what the pattern admits up to some slash. -/
theorem admits_append {pattern text : List Char} : admits (pattern ++ ['/', '*']) text = true ↔
    ∃ a b, text = a ++ '/' :: b ∧ admits pattern a = true := by
  rw [admits, tokens_append, accepts_append]
  constructor
  · rintro ⟨a, _, rfl, ha, hrest⟩
    obtain ⟨c, b, rfl, hc, -⟩ := (accepts_cons (by decide)).1 hrest
    obtain rfl : c = '/' := by simpa [GlobToken.holds] using hc
    exact ⟨a, b, rfl, ha⟩
  · rintro ⟨a, b, rfl, ha⟩
    refine ⟨a, '/' :: b, rfl, ha, (accepts_cons (by decide)).2 ⟨'/', b, rfl, rfl, ?_⟩⟩
    exact accepts_star.2 ⟨b, [], (List.append_nil b).symm, rfl⟩

end Tokens

end DesignLint.Glob
