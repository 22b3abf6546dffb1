import CellGraph.Proofs.Prefixes
import Mathlib.Data.List.Forall2

/-!
# Replacing in code only

A pattern may keep the first part of what it matches and replace the rest. Where all that is replaced lies in code
(`EditsCode`), parts like those before are left (`EditsCode.exists_like`): the same literals, comments and slashes, and
code that begins alike, so that each may still stand behind the one before (`isChain_of_like`).
-/

namespace CellGraph.Script

open Text

variable {before : Option Char} {text rest : List Char} {c : Char} {parts : List Part}

/-! ## What stands in code -/

/-- Whether a text that stands behind `before` in what is written for parts lies in one piece of code. -/
inductive InCode : List Part → List Char → List Char → Prop
  | here {code : Code} {parts : List Part} {before text rest : List Char} (h : code.text = before ++ text ++ rest) :
      InCode (.code code :: parts) before text
  | behind (part : Part) {parts : List Part} {before text : List Char} (h : InCode parts before text) :
      InCode (part :: parts) (part.text ++ before) text

/-- How a text begins, as far as it matters to the part before it: which letter it is does not. -/
def beginning (text : List Char) : Option (Option Char) :=
  text.head?.map fun c => if isCellStart c then none else some c

/-- Whether a part may stand for another: literals, comments and slashes for themselves only, and code for code that
begins like it. -/
inductive Part.Like : Part → Part → Prop
  | same (part : Part) : Like part part
  | code {c d : Code} (h : beginning c.text = beginning d.text) : Like (.code c) (.code d)

/-- What is left of a piece of code, if anything is. -/
def remaining (text : List Char) (h : ∀ c ∈ text, isPlain c = true) : List Part :=
  if hne : text = [] then [] else [.code ⟨text, hne, h⟩]

theorem written_append (a b : List Part) : written (a ++ b) = written a ++ written b := List.flatMap_append

theorem written_remaining (h : ∀ c ∈ text, isPlain c = true) : written (remaining text h) = text := by
  unfold remaining
  split
  next hnil => rw [hnil]; rfl
  next => simp [written, Part.text]

namespace InCode

variable {a b : List Char}

theorem exists_split (h : InCode parts a text) : ∃ front code back u w, parts = front ++ .code code :: back ∧
    a = written front ++ u ∧ code.text = u ++ text ++ w := by
  induction h with
  | @here code parts u text w h => exact ⟨[], code, parts, u, w, rfl, rfl, h⟩
  | behind part _ ih =>
    obtain ⟨front, code, back, u, w, rfl, rfl, hcode⟩ := ih
    exact ⟨part :: front, code, back, u, w, rfl, by simp [written], hcode⟩

theorem cons_iff {part : Part} : InCode (part :: parts) a text ↔
    (∃ code w, part = .code code ∧ code.text = a ++ text ++ w) ∨ ∃ a', a = part.text ++ a' ∧ InCode parts a' text := by
  constructor
  · intro h
    cases h with
    | here h => exact Or.inl ⟨_, _, rfl, h⟩
    | behind _ h => exact Or.inr ⟨_, rfl, h⟩
  · rintro (⟨code, w, rfl, h⟩ | ⟨a', rfl, h⟩)
    · exact .here h
    · exact .behind part h

theorem behind_remaining {w : List Char} (hw : ∀ c ∈ w, isPlain c = true) (h : InCode parts a text) :
    InCode (remaining w hw ++ parts) (w ++ a) text := by
  unfold remaining
  split
  next hnil => simpa [hnil] using h
  next hne => exact .behind (.code ⟨w, hne, hw⟩) h

/-- What lies in code behind a place in code does so from that place on. -/
theorem from_place {front back : List Part} {code : Code} {u w : List Char} (hne : text ≠ [])
    (hcode : code.text = u ++ w) (hw : ∀ c ∈ w, isPlain c = true)
    (h : InCode (front ++ .code code :: back) (written front ++ u ++ b) text) :
    InCode (remaining w hw ++ back) b text := by
  induction front with
  | nil =>
    rcases cons_iff.mp h with ⟨_, v, ⟨⟩, hv⟩ | ⟨a, ha, h⟩
    · -- in the same piece of code
      have hsplit : w = b ++ text ++ v := by
        rw [hcode] at hv
        simpa [written] using hv
      have hwne : w ≠ [] := by
        rintro rfl
        exact hne (List.append_eq_nil_iff.mp (List.append_eq_nil_iff.mp hsplit.symm).1).2
      rw [remaining, dif_neg hwne]
      exact .here hsplit
    · have hb : b = w ++ a := by simpa [written, Part.text, hcode] using ha
      rw [hb]
      exact behind_remaining hw h
  | cons part front ih =>
    have hwritten : written (part :: front) ++ u ++ b = part.text ++ (written front ++ u ++ b) := by simp [written]
    rw [List.cons_append, hwritten] at h
    rcases cons_iff.mp h with ⟨d, v, rfl, hv⟩ | ⟨a, ha, h⟩
    · -- the text would have to be empty
      have hlength := congrArg List.length hv
      simp only [Part.text, List.length_append] at hlength
      exact absurd (List.length_eq_zero_iff.mp (by omega)) hne
    · rw [← List.append_cancel_left ha] at h
      exact ih h

end InCode

/-! ## Replacing in code only -/

theorem beginning_append {a b : List Char} (h : beginning a = beginning b) (hne : a ≠ []) (x y : List Char) :
    beginning (a ++ x) = beginning (b ++ y) := by
  have hne' : b ≠ [] := by
    rintro rfl
    simp [beginning, hne] at h
  obtain ⟨c, cs, rfl⟩ := List.exists_cons_of_ne_nil hne
  obtain ⟨d, ds, rfl⟩ := List.exists_cons_of_ne_nil hne'
  exact h

theorem beginning_append_left {a b : List Char} (h : beginning a = beginning b) (u : List Char) :
    beginning (u ++ a) = beginning (u ++ b) := by
  cases u with
  | nil => exact h
  | cons c cs => rfl

/-- Whether a pattern replaces stretches of code only: what it keeps of a match may stand before such a stretch, and
what stands in its place is code that begins like it. -/
def EditsCode (pattern : Pattern) (before : Option Char) (parts : List Part) : Prop :=
  ∀ a b m, written parts = a ++ b → pattern (charBehind before a) b = some m →
    ∃ kept old new rest, b = kept ++ old ++ rest ∧ m = .upTo b rest (kept ++ new) ∧ old ≠ [] ∧
      (∀ c ∈ new, isPlain c = true) ∧ beginning old = beginning new ∧ InCode parts (a ++ kept) old

theorem written_front (front back : List Part) (code : Code) :
    written (front ++ .code code :: back) = written front ++ (code.text ++ written back) := by
  simp [written, Part.text]

/-- A pattern that replaces code only does so from any place in code on. -/
theorem EditsCode.from_place {pattern : Pattern} {front back : List Part} {code : Code} {u w : List Char}
    (h : EditsCode pattern before (front ++ .code code :: back)) (hcode : code.text = u ++ w)
    (hw : ∀ c ∈ w, isPlain c = true) :
    EditsCode pattern (charBehind before (written front ++ u)) (remaining w hw ++ back) := by
  intro a b m hab hm
  rw [written_append, written_remaining] at hab
  rw [← charBehind_append] at hm
  obtain ⟨kept, old, new, rest, hb, hmatch, hold, hnew, hbegin, hin⟩ := h (written front ++ u ++ a) b m
    (by rw [written_front, hcode, List.append_assoc, hab]; simp) hm
  rw [List.append_assoc] at hin
  exact ⟨kept, old, new, rest, hb, hmatch, hold, hnew, hbegin, hin.from_place hold hcode hw⟩

theorem exists_remaining {back more : List Part} (hw : ∀ c ∈ text, isPlain c = true)
    (h : List.Forall₂ Part.Like (remaining text hw ++ back) more) :
    ∃ out back', (∀ c ∈ out, isPlain c = true) ∧ written more = out ++ written back' ∧
      List.Forall₂ Part.Like back back' := by
  unfold remaining at h
  split at h
  next => exact ⟨[], more, by simp, rfl, h⟩
  next =>
    cases h with
    | cons hcode hback =>
      cases hcode with
      | same => exact ⟨_, _, hw, rfl, hback⟩
      | @code _ d _ => exact ⟨_, _, d.plain, rfl, hback⟩

/-- Where a pattern replaces code only, the same literals and comments are left. -/
theorem EditsCode.exists_like {pattern : Pattern} (h : EditsCode pattern before parts) :
    ∃ parts', List.Forall₂ Part.Like parts parts' ∧
      substituteFrom pattern before 0 (written parts) = written parts' := by
  -- from one match to the next; the code behind a match is a part of its own
  induction hlength : (written parts).length using Nat.strong_induction_on generalizing before parts with
  | h n ih =>
    subst hlength
    rcases substituteFrom_eq_or pattern before (written parts) with ⟨hcopied, -⟩ | ⟨a, b, m, hab, hb, hm, hsplit⟩
    · exact ⟨parts, List.forall₂_same.mpr fun part _ => .same part, hcopied⟩
    · obtain ⟨kept, old, new, rest, rfl, rfl, hold, hnew, hbegin, hcode⟩ := h a b m hab hm
      obtain ⟨front, code, back, u, w, rfl, hfront, htext⟩ := hcode.exists_split
      have hw : ∀ d ∈ w, isPlain d = true := fun d hd => code.plain d (by rw [htext]; simp [hd])
      have hu : ∀ d ∈ u, isPlain d = true := fun d hd => code.plain d (by rw [htext]; simp [hd])
      have hplace : a ++ (kept ++ old) = written front ++ (u ++ old) := by
        rw [← List.append_assoc, hfront, List.append_assoc]
      have hrest : rest = w ++ written back := by
        rw [written_front, htext, ← List.append_assoc a, hplace] at hab
        simpa using hab.symm
      have hkept : kept ++ old ≠ [] := by simp [hold]
      have hreplaced := substituteFrom_of_match hkept hm
      have hwritten : written (remaining w hw ++ back) = rest := by rw [written_append, written_remaining, hrest]
      have hshorter : (written (remaining w hw ++ back)).length < (written (front ++ .code code :: back)).length := by
        have hpos := List.length_pos_iff.mpr hold
        rw [hwritten, hab]
        simp only [List.length_append]
        omega
      obtain ⟨more, hmore, hrun⟩ := ih _ hshorter (h.from_place htext hw) rfl
      obtain ⟨out, back', hout, hleft, hback⟩ := exists_remaining hw hmore
      have hnewne : new ≠ [] := by
        rintro rfl
        simp [beginning, hold] at hbegin
      refine ⟨front ++ .code ⟨u ++ (new ++ out), by simp [hnewne], ?_⟩ :: back', ?_, ?_⟩
      · simpa only [List.forall_mem_append] using ⟨hu, hnew, hout⟩
      · refine List.rel_append (List.forall₂_same.mpr fun part _ => .same part) (.cons (.code ?_) hback)
        rw [htext, List.append_assoc]
        exact beginning_append_left (beginning_append hbegin hold w out) u
      · rw [hwritten, hleft, ← hplace, charBehind_append] at hrun
        rw [hsplit, hreplaced, hrun, written_front, ← List.append_assoc a, ← List.append_assoc a, hfront]
        simp

/-! ## Parts that stand for others -/

theorem head?_eq_iff_of_beginning {a b : List Char} (h : beginning a = beginning b) (hc : isCellStart c = false) :
    a.head? = some c ↔ b.head? = some c := by
  have hbegins : ∀ text : List Char, text.head? = some c ↔ beginning text = some (some c) := by
    intro text
    cases text with
    | nil => simp [beginning]
    | cons d ds =>
      by_cases hd : isCellStart d = true
      · have hne : d ≠ c := by
          rintro rfl
          simp [hc] at hd
        simp [beginning, hd, hne]
      · simp [beginning, hd]
  rw [hbegins, hbegins, h]

namespace Part.Like

variable {p q r p' q' : Part}

theorem beginning (h : Like p q) : Script.beginning p.text = Script.beginning q.text := by
  cases h with
  | same => rfl
  | code h => exact h

theorem trans (h : Like p q) (h' : Like q r) : Like p r := by
  cases h with
  | same => exact h'
  | code h =>
    cases h' with
    | same => exact .code h
    | code h' => exact .code (h.trans h')

theorem mayPrecede (hp : Like p p') (hq : Like q q') (h : p.MayPrecede q) : p'.MayPrecede q' := by
  have hcode : (∃ c d, p' = .code c ∧ q' = .code d) → ∃ c d, p = .code c ∧ q = .code d := by
    rintro ⟨c, d, rfl, rfl⟩
    cases hp <;> cases hq <;> exact ⟨_, _, rfl, rfl⟩
  cases p' with
  | literal l => trivial
  | blockComment b => trivial
  | lineComment l =>
    cases hp
    exact (head?_eq_iff_of_beginning hq.beginning (by decide)).mp h
  | slash =>
    cases hp
    have hslash := head?_eq_iff_of_beginning hq.beginning (c := '/') (by decide)
    have hstar := head?_eq_iff_of_beginning hq.beginning (c := '*') (by decide)
    exact ⟨fun e => h.1 (hslash.mpr e), fun e => h.2 (hstar.mpr e)⟩
  | code c =>
    cases q' with
    | code d =>
      obtain ⟨c, d, rfl, rfl⟩ := hcode ⟨_, _, rfl, rfl⟩
      exact h
    | _ => trivial

end Part.Like

theorem isChain_of_like {parts parts' : List Part} (h : List.Forall₂ Part.Like parts parts')
    (hchain : parts.IsChain Part.MayPrecede) : parts'.IsChain Part.MayPrecede := by
  induction h with
  | nil => exact .nil
  | @cons p p' parts parts' hp hrest ih =>
    rw [List.isChain_cons] at hchain ⊢
    refine ⟨fun q' hq' => ?_, ih hchain.2⟩
    cases hrest with
    | nil => cases hq'
    | cons hq _ =>
      cases hq'
      exact hp.mayPrecede hq (hchain.1 _ rfl)

theorem like_trans {a b c : List Part} (hab : List.Forall₂ Part.Like a b) (hbc : List.Forall₂ Part.Like b c) :
    List.Forall₂ Part.Like a c := by
  induction hab generalizing c with
  | nil => exact hbc
  | cons h _ ih =>
    cases hbc with
    | cons h' hrest => exact .cons (h.trans h') (ih hrest)

/-! ## Dropping prefixes -/

theorem Without.subset {out : List Char} (h : Without before text out) : out ⊆ text := by
  induction h with
  | nil => exact List.Subset.refl _
  | kept _ _ ih => exact List.cons_subset_cons _ ih
  | dropped _ hprefixed _ ih =>
    obtain ⟨front, -, -, rfl⟩ := hprefixed
    intro d hd
    rcases List.mem_cons.mp hd with rfl | hd
    · simp
    · simp [ih hd]

theorem Without.beginning {out : List Char} (h : Without before text out) : beginning text = beginning out := by
  cases h with
  | nil => rfl
  | kept => rfl
  | dropped _ hprefixed =>
    obtain ⟨front, hfront, hfirst, rfl⟩ := hprefixed
    obtain ⟨c, cs, rfl, hc⟩ := hfront.exists_cons
    simp [Script.beginning, hfirst, hc]

theorem exists_withoutPrefixes (part : Part) : ∃ part', part.Like part' ∧ part.withoutPrefixes = part'.text := by
  cases part with
  | code c =>
    have hwithout := (without_iff c.plain).mpr (rfl : _ = substituteFrom cellPrefix none 0 c.text)
    have hbegin := hwithout.beginning
    have hne : substituteFrom cellPrefix none 0 c.text ≠ [] := by
      intro hnil
      rw [hnil] at hbegin
      simp [beginning, c.ne_nil] at hbegin
    exact ⟨.code ⟨_, hne, fun d hd => c.plain d (hwithout.subset hd)⟩, .code hbegin, rfl⟩
  | literal l => exact ⟨_, .same _, rfl⟩
  | blockComment b => exact ⟨_, .same _, rfl⟩
  | lineComment l => exact ⟨_, .same _, rfl⟩
  | slash => exact ⟨_, .same _, rfl⟩

theorem exists_like_dropCellPrefixes (h : parts.IsChain Part.MayPrecede) :
    ∃ parts', List.Forall₂ Part.Like parts parts' ∧ dropCellPrefixes (written parts) = written parts' := by
  have hparts : ∀ parts : List Part, ∃ parts', List.Forall₂ Part.Like parts parts' ∧
      parts.flatMap Part.withoutPrefixes = written parts' := by
    intro parts
    induction parts with
    | nil => exact ⟨[], .nil, rfl⟩
    | cons part parts ih =>
      obtain ⟨part', hpart, htext⟩ := exists_withoutPrefixes part
      obtain ⟨parts', hparts, hwritten⟩ := ih
      exact ⟨part' :: parts', .cons hpart hparts, by simp [written, htext, hwritten]⟩
  obtain ⟨parts', hlike, hwritten⟩ := hparts parts
  exact ⟨parts', hlike, (substituteFrom_written h fun _ _ _ _ => Or.inl rfl).trans hwritten⟩

end CellGraph.Script
