import ClassSchema.Proofs.Artifact.Directive
import ClassSchema.Proofs.Template.Builtin
import Mathlib.Data.List.TakeWhile

/-!
# Descriptions without directives

A description is passed over when it does not hold the mark of a directive, and when no parenthesis in
it that follows a word is left open, so that nothing behind the description is read as arguments.
-/

namespace ClassSchema.Artifact

/-- A text that no directive begins in. -/
structure Quiet (u : List Char) : Prop where
  unmarked : ¬ directiveMark <:+: u
  closed : ∀ c v, isWordChar c = true → c :: '(' :: v <:+ u → ')' ∈ v

theorem Quiet.of_suffix {u v : List Char} (h : Quiet u) (hv : v <:+ u) : Quiet v where
  unmarked := fun hmark => h.unmarked (hmark.trans hv.isInfix)
  closed := fun c w hc hw => h.closed c w hc (hw.trans hv)

/-- The end of a description, perhaps after a line break. -/
def closing (broken : Bool) (r : List Char) : List Char :=
  (if broken then ['\n'] else []) ++ '"' :: '"' :: '"' :: '\n' :: r

variable {u r : List Char} {broken : Bool}

theorem skipBlanks_closing : skipBlanks (closing broken r) = closing false r := by
  cases broken <;> rfl

theorem takeWhile_closing : (closing broken r).takeWhile isWordChar = [] := by
  cases broken <;> rfl

theorem dropWhile_append_closing (u : List Char) :
    (u ++ closing broken r).dropWhile isWordChar = u.dropWhile isWordChar ++ closing broken r := by
  rw [List.dropWhile_append]
  split
  · next hnil =>
    rw [List.isEmpty_iff.mp hnil]
    cases broken <;> rfl
  · rfl

theorem skipBlanks_append_closing (broken : Bool) (r u : List Char) :
    skipBlanks (u ++ closing broken r) = closing false r ∨
      ∃ v, v ≠ [] ∧ v <:+ u ∧ skipBlanks (u ++ closing broken r) = v ++ closing broken r := by
  rw [skipBlanks, List.dropWhile_append]
  split
  · left
    exact skipBlanks_closing
  · next hne =>
    right
    exact ⟨_, by simpa using hne, List.dropWhile_suffix _, rfl⟩

theorem after?_mark_closing (h : ¬ directiveMark <:+: u) :
    after? directiveMark (u ++ closing broken r) = none := by
  refine Option.eq_none_iff_forall_ne_some.mpr fun s hs => ?_
  have heq := after?_eq_some_iff.mp hs
  obtain ⟨c, t, hc, hclose⟩ : ∃ c t, c ∉ directiveMark ∧ closing broken r = c :: t := by
    cases broken
    · exact ⟨'"', _, by decide, rfl⟩
    · exact ⟨'\n', _, by decide, rfl⟩
  rw [hclose] at heq
  rcases List.append_eq_append_iff.mp heq with ⟨v, hmark, hrest⟩ | ⟨v, hu, -⟩
  · cases v with
    | nil => exact h ⟨[], [], by simp [hmark]⟩
    | cons d v =>
      obtain ⟨rfl, -⟩ := List.cons.inj hrest
      exact hc (by simp [hmark])
  · exact h ⟨[], v, by simp [hu]⟩

theorem skipArguments_append_closing (broken : Bool) (r : List Char) {c : Char} {v : List Char}
    (hu : Quiet u) (hc : isWordChar c = true) (hv : c :: v <:+ u) :
    ∃ w, w <:+ u ∧ skipArguments (v ++ closing broken r) = some (w ++ closing broken r) := by
  have hsuffix : v <:+ u := (List.suffix_cons c v).trans hv
  cases v with
  | nil =>
    refine ⟨[], List.nil_suffix, ?_⟩
    cases broken <;> rfl
  | cons d v =>
    by_cases hd : d = '('
    · subst hd
      have hclosed := hu.closed c v hc hv
      cases hdrop : v.dropWhile (· ≠ ')') with
      | nil =>
        have hall := List.dropWhile_eq_nil_iff.mp hdrop ')' hclosed
        simp at hall
      | cons e w =>
        have happend : (v ++ closing broken r).dropWhile (· ≠ ')') = e :: (w ++ closing broken r) := by
          rw [List.dropWhile_append, hdrop]
          rfl
        have hw : e :: w <:+ v := by
          rw [← hdrop]
          exact List.dropWhile_suffix _
        refine ⟨w, ((List.suffix_cons e w).trans hw).trans ((List.suffix_cons _ v).trans hsuffix), ?_⟩
        rw [List.cons_append, skipArguments, happend]
    · refine ⟨d :: v, hsuffix, ?_⟩
      rw [List.cons_append, skipArguments]
      simpa using hd

theorem after?_mark_dropWhile (h : ¬ directiveMark <:+: u) :
    after? directiveMark
      ((skipBlanks (u ++ closing broken r)).dropWhile fun c => c ≠ '@' && c ≠ '\n') = none := by
  rcases skipBlanks_append_closing broken r u with hskip | ⟨v, -, hv, hskip⟩
  · rw [hskip]
    rfl
  · rw [hskip, List.dropWhile_append]
    split
    · cases broken <;> rfl
    · refine after?_mark_closing fun hmark => h (hmark.trans ?_)
      exact ((List.dropWhile_suffix _).trans hv).isInfix

theorem readRest_quiet {c : Char} {v : List Char} (hu : Quiet u) (hc : isWordChar c = true)
    (hv : c :: v <:+ u) : readRest (v ++ closing broken r) = none := by
  obtain ⟨w, hw, hargs⟩ := skipArguments_append_closing broken r hu hc hv
  rw [readRest, hargs, Option.bind_some]
  rcases skipBlanks_append_closing broken r w with hskip | ⟨x, hne, hx, hskip⟩
  · rw [hskip]
    rfl
  · rw [hskip]
    cases x with
    | nil => exact absurd rfl hne
    | cons d x =>
      by_cases hd : ':' = d
      · have hmark : ¬ directiveMark <:+: x := fun hmark =>
          hu.unmarked (hmark.trans (((List.suffix_cons d x).trans hx).trans hw).isInfix)
        subst hd
        have hcolon : after? [':'] (':' :: x ++ closing broken r) = some (x ++ closing broken r) :=
          after?_append [':'] _
        rw [hcolon, Option.bind_some, after?_mark_dropWhile hmark]
        rfl
      · have hcolon : after? [':'] (d :: x ++ closing broken r) = none := by
          simp [after?, hd]
        rw [hcolon]
        rfl

theorem readDirective_quiet (hu : Quiet u) : readDirective (u ++ closing broken r) = none := by
  rw [readDirective_eq]
  rcases skipBlanks_append_closing broken r u with hskip | ⟨v, hne, hv, hskip⟩
  · rw [hskip, takeWhile_closing, if_pos rfl]
  · rw [hskip, dropWhile_append_closing]
    split
    · rfl
    · next hword =>
      have hname : v.takeWhile isWordChar ≠ [] := by
        intro hnil
        cases v with
        | nil => exact hne rfl
        | cons d v =>
          have hd : isWordChar d = false := by
            by_contra hd
            rw [Bool.not_eq_false] at hd
            simp [hd] at hnil
          exact hword (by simp [hd])
      -- The name ends in a word character, so a parenthesis right behind it is one that must be closed.
      have hlast := List.dropLast_concat_getLast hname
      have hc : isWordChar ((v.takeWhile isWordChar).getLast hname) = true :=
        List.mem_takeWhile_imp (List.getLast_mem hname)
      have hsuffix : (v.takeWhile isWordChar).getLast hname :: v.dropWhile isWordChar <:+ u := by
        refine List.IsSuffix.trans ⟨(v.takeWhile isWordChar).dropLast, ?_⟩ hv
        rw [List.append_cons, hlast, List.takeWhile_append_dropWhile]
      rw [readRest_quiet hu hc hsuffix]
      rfl

/-! ### Passing over descriptions -/

theorem scanDirectives_closing (fresh : Bool) :
    scanDirectives 0 fresh (closing broken r) = scanDirectives 0 true r := by
  have hquotes (fresh : Bool) : scanDirectives 0 fresh (closing false r) = scanDirectives 0 true r := by
    cases fresh with
    | false => exact scanDirectives_line (u := ['"', '"', '"']) (by simp) r
    | true =>
      refine scanDirectives_fresh_line (u := ['"', '"', '"']) (by simp) (by simp) ?_
      exact readDirective_of_symbol (w := []) (by simp) rfl rfl _
  cases broken with
  | false => exact hquotes fresh
  | true =>
    have hbreak : readDirective (closing true r) = none :=
      readDirective_of_symbol (w := ['\n']) (c := '"') (by simp; rfl) rfl rfl _
    show scanDirectives 0 fresh ('\n' :: closing false r) = _
    rw [scanDirectives]
    have hnone : (if fresh then readDirective ('\n' :: closing false r) else none) = none := by
      cases fresh with
      | false => rfl
      | true => exact hbreak
    rw [hnone]
    exact hquotes true

/-- A quiet description is passed over with the line that ends it. -/
theorem scanDirectives_quiet (hu : Quiet u) (fresh : Bool) :
    scanDirectives 0 fresh (u ++ closing broken r) = scanDirectives 0 true r := by
  induction u generalizing fresh with
  | nil => exact scanDirectives_closing fresh
  | cons c u ih =>
    have hnone : (if fresh then readDirective (c :: (u ++ closing broken r)) else none) = none := by
      cases fresh with
      | false => rfl
      | true => exact readDirective_quiet hu
    rw [List.cons_append, scanDirectives, hnone]
    exact ih (hu.of_suffix (List.suffix_cons c u)) _

/-- The description of a whole definition is passed over. -/
theorem scanDirectives_framed_block {description : Option String}
    (h : ∀ t, description = some t → Quiet (escapeBlock t.toList)) (r : List Char) :
    scanDirectives 0 true (framed "\"\"\"\n" "\n\"\"\"\n" description ++ r) =
      scanDirectives 0 true r := by
  cases description with
  | none => rfl
  | some t =>
    rw [framed]
    split
    · rfl
    · have hopen : readDirective (['"', '"', '"'] ++ '\n' :: (escapeBlock t.toList ++ closing true r)) =
          none := readDirective_of_symbol (w := []) (by simp) rfl rfl _
      have hline := scanDirectives_fresh_line (by simp) (by simp) hopen
      rw [scanDirectives_quiet (h t rfl)] at hline
      rw [← hline, closing]
      simp

theorem scanDirectives_framed_line {description : Option String}
    (h : ∀ t, description = some t → Quiet (escapeBlock t.toList)) (r : List Char) :
    scanDirectives 0 true (framed "  \"\"\"" "\"\"\"\n" description ++ r) =
      scanDirectives 0 true r := by
  cases description with
  | none => rfl
  | some t =>
    rw [framed]
    split
    · rfl
    · have hopen : readDirective ([' ', ' '] ++ '"' :: '"' :: '"' ::
          (escapeBlock t.toList ++ closing false r)) = none :=
        readDirective_of_symbol (by simp; rfl) rfl rfl _
      have htext : "  \"\"\"".toList ++ escapeBlock t.toList ++ "\"\"\"\n".toList ++ r =
          ' ' :: ' ' :: '"' :: '"' :: '"' :: (escapeBlock t.toList ++ closing false r) := by
        simp [closing]
      rw [htext, scanDirectives]
      rw [List.cons_append, List.cons_append, List.nil_append] at hopen
      rw [if_pos rfl, hopen]
      exact scanDirectives_quiet (h t rfl) false

end ClassSchema.Artifact
