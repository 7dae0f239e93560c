/-
Patterns of domains in a `.mrs` rule set.

* `Pattern`: a pattern label by label, from the right, with `*` for one label and
  a `+` at the left end for one label or more; `Pattern.Matches` compares label by
  label, `Pattern.stored` is the text that the tree holds.
-/
import Ntr.Go.Strings

namespace Ntr.Ruleset

open Go List

/-- `'+'`. -/
def complexWildcardByte : UInt8 := 0x2B

/-- `'*'`. -/
def wildcardByte : UInt8 := 0x2A

/-- `'.'`. -/
def domainStepByte : UInt8 := 0x2E

/-! ### Patterns -/

/-- A label of a domain, turned around: no dot, no wildcard and nothing below. -/
structure Word where
  bytes : Str
  plain : ∀ b ∈ bytes, complexWildcardByte < b ∧ b ≠ domainStepByte
  ne : bytes ≠ []

/-- A label of a pattern. -/
inductive Label where
  | star
  | word (w : Word)

/-- A pattern, from its rightmost label on. -/
structure Pattern where
  labels : List Label
  /-- A `+` as the leftmost label. -/
  plus : Bool
  ne : labels ≠ [] ∨ plus = true

/-- A domain, from its rightmost label on. -/
structure Domain where
  labels : List Word
  ne : labels ≠ []

def join : List Str → Str
  | [] => []
  | [w] => w
  | w :: ws => w ++ domainStepByte :: join ws

def Domain.key (d : Domain) : Str := join (d.labels.map Word.bytes)

def Label.text : Label → Str
  | star => [wildcardByte]
  | word w => w.bytes

/-- The label takes the label of a domain. -/
def Label.Accepts : Label → Word → Prop
  | star, _ => True
  | word w, d => w.bytes = d.bytes

/-- Label by label. -/
def matchLabels : List Label → Bool → List Word → Prop
  | [], false, ds => ds = []
  | [], true, ds => ds ≠ []
  | _ :: _, _, [] => False
  | l :: ls, plus, d :: ds => l.Accepts d ∧ matchLabels ls plus ds

instance : ∀ (l : Label) (d : Word), Decidable (l.Accepts d)
  | .star, _ => isTrue trivial
  | .word w, d => inferInstanceAs (Decidable (w.bytes = d.bytes))

instance decidableMatchLabels : ∀ ls plus ds, Decidable (matchLabels ls plus ds)
  | [], false, [] => isTrue rfl
  | [], false, _ :: _ => isFalse (cons_ne_nil _ _)
  | [], true, [] => isFalse (not_not_intro rfl)
  | [], true, _ :: _ => isTrue (cons_ne_nil _ _)
  | _ :: _, _, [] => isFalse id
  | l :: ls, plus, d :: ds =>
    have := decidableMatchLabels ls plus ds
    inferInstanceAs (Decidable (l.Accepts d ∧ matchLabels ls plus ds))

namespace Pattern

def Matches (P : Pattern) (d : Domain) : Prop := matchLabels P.labels P.plus d.labels

instance (P : Pattern) (d : Domain) : Decidable (P.Matches d) :=
  decidableMatchLabels P.labels P.plus d.labels

def parts (labels : List Label) (plus : Bool) : List Str :=
  labels.map Label.text ++ if plus then [[complexWildcardByte]] else []

def stored (P : Pattern) : Str := join (parts P.labels P.plus)

end Pattern

def patternKeys (S : List Pattern) : List Str := S.map Pattern.stored

/-! ### Patterns on bytes -/

/-- A stored pattern, or a part of one, against the bytes of a domain: `+` takes
anything, `*` what stands in front of the next dot. -/
def Fits : Str → Str → Prop
  | [], r => r = []
  | c :: t, r =>
    if c = complexWildcardByte then r ≠ []
    else if c = wildcardByte then Fits t (r.dropWhile (· ≠ domainStepByte))
    else ∃ r', r = c :: r' ∧ Fits t r'

section
variable {c : UInt8} {t r : Str}

lemma fits_nil : Fits [] r ↔ r = [] := Iff.rfl

lemma fits_plus : Fits (complexWildcardByte :: t) r ↔ r ≠ [] := by
  rw [Fits, if_pos rfl]

lemma fits_star : Fits (wildcardByte :: t) r ↔ Fits t (r.dropWhile (· ≠ domainStepByte)) := by
  rw [Fits, if_neg (by decide), if_pos rfl]

lemma fits_byte (hp : c ≠ complexWildcardByte) (hs : c ≠ wildcardByte) :
    Fits (c :: t) r ↔ ∃ r', r = c :: r' ∧ Fits t r' := by
  rw [Fits, if_neg hp, if_neg hs]

lemma fits_dot : Fits (domainStepByte :: t) r ↔ ∃ r', r = domainStepByte :: r' ∧ Fits t r' :=
  fits_byte (by decide) (by decide)

end

instance decidableFits : ∀ t r : Str, Decidable (Fits t r)
  | [], r => decidable_of_iff (r = []) fits_nil.symm
  | c :: t, r =>
    if hp : c = complexWildcardByte then decidable_of_iff (r ≠ []) (by rw [hp, fits_plus])
    else if hs : c = wildcardByte then
      @decidable_of_iff _ (Fits t (r.dropWhile (· ≠ domainStepByte))) (by rw [hs, fits_star])
        (decidableFits t _)
    else
      match r with
      | [] => isFalse (by rw [fits_byte hp hs]; simp)
      | b :: r =>
        if hb : b = c then
          @decidable_of_iff _ (Fits t r) (by rw [fits_byte hp hs, hb]; simp) (decidableFits t r)
        else isFalse (by rw [fits_byte hp hs]; simp [hb])

def tailOf : List Str → Str
  | [] => []
  | w :: ws => domainStepByte :: join (w :: ws)

lemma join_cons (w : Str) (ws : List Str) : join (w :: ws) = w ++ tailOf ws := by
  cases ws with
  | nil => rw [join, tailOf, append_nil]
  | cons v ws => rw [join, tailOf]; simp

lemma Word.ne_special (w : Word) {b : UInt8} (hb : b ∈ w.bytes) :
    b ≠ complexWildcardByte ∧ b ≠ wildcardByte ∧ b ≠ domainStepByte := by
  obtain ⟨hlt, hdot⟩ := w.plain b hb
  refine ⟨fun h => ?_, fun h => ?_, hdot⟩
  · subst h
    exact absurd hlt (by decide)
  · subst h
    exact absurd hlt (by decide)

lemma fits_word {w d : Str} {xs ds : List Str}
    (hw : ∀ b ∈ w, b ≠ complexWildcardByte ∧ b ≠ wildcardByte ∧ b ≠ domainStepByte)
    (hd : ∀ b ∈ d, b ≠ domainStepByte) :
    Fits (w ++ tailOf xs) (d ++ tailOf ds) ↔ w = d ∧ Fits (tailOf xs) (tailOf ds) := by
  induction w generalizing d with
  | nil =>
    cases d with
    | nil => simp
    | cons b d =>
      refine iff_of_false (fun h => ?_) (by simp)
      have hb := hd b mem_cons_self
      cases xs with
      | nil => simp [tailOf, Fits] at h
      | cons x xs =>
        obtain ⟨r', hr, -⟩ := fits_dot.mp h
        exact hb (List.cons.inj hr).1
  | cons a w ih =>
    obtain ⟨hp, hs, hdot⟩ := hw a mem_cons_self
    rw [cons_append, fits_byte hp hs]
    cases d with
    | nil =>
      refine iff_of_false ?_ (by simp)
      rintro ⟨r', hr, -⟩
      cases ds with
      | nil => simp [tailOf] at hr
      | cons v ds => exact hdot (List.cons.inj hr).1.symm
    | cons b d =>
      have hih := ih (d := d) (fun x hx => hw x (mem_cons_of_mem _ hx))
        (fun x hx => hd x (mem_cons_of_mem _ hx))
      constructor
      · rintro ⟨r', hr, hfit⟩
        obtain ⟨rfl, rfl⟩ := List.cons.inj hr
        obtain ⟨rfl, hrest⟩ := hih.mp hfit
        exact ⟨rfl, hrest⟩
      · rintro ⟨heq, hrest⟩
        obtain ⟨rfl, rfl⟩ := List.cons.inj heq
        exact ⟨_, rfl, hih.mpr ⟨rfl, hrest⟩⟩

lemma dropWhile_word {d : Str} {ds : List Str} (hd : ∀ b ∈ d, b ≠ domainStepByte) :
    (d ++ tailOf ds).dropWhile (· ≠ domainStepByte) = tailOf ds := by
  rw [dropWhile_append_of_pos (by simpa using hd)]
  cases ds <;> simp [tailOf]

lemma fits_label (l : Label) (d : Word) (xs ds : List Str) :
    Fits (l.text ++ tailOf xs) (d.bytes ++ tailOf ds) ↔
      l.Accepts d ∧ Fits (tailOf xs) (tailOf ds) := by
  have hd : ∀ b ∈ d.bytes, b ≠ domainStepByte := fun b hb => (d.plain b hb).2
  cases l with
  | star =>
    rw [Label.text, singleton_append, fits_star, dropWhile_word hd]
    exact (and_iff_right trivial).symm
  | word w => exact fits_word (fun b hb => w.ne_special hb) hd

lemma join_ne_nil {ds : List Word} (h : ds ≠ []) : join (ds.map Word.bytes) ≠ [] := by
  obtain ⟨d, ds, rfl⟩ := exists_cons_of_ne_nil h
  rw [map_cons, join_cons]
  exact fun hnil => d.ne (append_eq_nil_iff.mp hnil).1

lemma fits_tailOf {xs : List Str} {ds : List Word} (hxs : xs ≠ []) :
    Fits (tailOf xs) (tailOf (ds.map Word.bytes)) ↔
      ds ≠ [] ∧ Fits (join xs) (join (ds.map Word.bytes)) := by
  obtain ⟨x, xs, rfl⟩ := exists_cons_of_ne_nil hxs
  rw [tailOf, fits_dot]
  cases ds with
  | nil => simp [tailOf]
  | cons d ds =>
    rw [map_cons, tailOf]
    simp

/-- **On bytes a pattern fits what it matches label by label.** -/
lemma fits_parts (ls : List Label) (plus : Bool) (ds : List Word) (hne : ls ≠ [] ∨ plus = true)
    (hds : ds ≠ []) :
    Fits (join (Pattern.parts ls plus)) (join (ds.map Word.bytes)) ↔ matchLabels ls plus ds := by
  induction ls generalizing ds with
  | nil =>
    obtain rfl := hne.resolve_left (fun h => h rfl)
    rw [matchLabels, Pattern.parts]
    exact fits_plus.trans (iff_of_true (join_ne_nil hds) hds)
  | cons l ls ih =>
    obtain ⟨d, ds, rfl⟩ := exists_cons_of_ne_nil hds
    have hparts : Pattern.parts (l :: ls) plus = l.text :: Pattern.parts ls plus := rfl
    rw [hparts, map_cons, join_cons, join_cons, fits_label, matchLabels]
    refine and_congr_right fun _ => ?_
    by_cases hrest : ls ≠ [] ∨ plus = true
    · have hxs : Pattern.parts ls plus ≠ [] := by
        rcases hrest with h | h
        · simp [Pattern.parts, h]
        · simp [Pattern.parts, h]
      rw [fits_tailOf hxs]
      by_cases hds' : ds = []
      · subst hds'
        refine iff_of_false (fun h => h.1 rfl) ?_
        cases ls with
        | nil =>
          obtain rfl := hrest.resolve_left (fun h => h rfl)
          exact fun h => h rfl
        | cons l' ls => exact id
      · rw [and_iff_right hds', ih ds hrest hds']
    · obtain ⟨rfl, rfl⟩ : ls = [] ∧ plus = false := by simpa using hrest
      rw [matchLabels]
      change Fits [] (tailOf (ds.map Word.bytes)) ↔ _
      rw [fits_nil]
      cases ds <;> simp [tailOf]

lemma fits_stored (P : Pattern) (d : Domain) : Fits P.stored d.key ↔ P.Matches d :=
  fits_parts P.labels P.plus d.labels P.ne d.ne

/-! ### The shape of stored patterns and of domains -/

/-- The keys write a wildcard as a label of its own. -/
def Starred (keys : List Str) : Prop :=
  ∀ q t, q ++ wildcardByte :: t ∈ keys → t = [] ∨ ∃ t', t = domainStepByte :: t'

/-- The bytes of a domain: above the wildcards, and no dot at the end. -/
structure IsKey (k : Str) : Prop where
  plain : ∀ b ∈ k, complexWildcardByte < b
  dot : ∀ x, k ≠ x ++ [domainStepByte]

lemma starred_join (xs : List Str) (hxs : ∀ x ∈ xs, x = [wildcardByte] ∨ wildcardByte ∉ x)
    {q t : Str} (h : join xs = q ++ wildcardByte :: t) :
    t = [] ∨ ∃ t', t = domainStepByte :: t' := by
  induction xs generalizing q with
  | nil => simp [join] at h
  | cons x xs ih =>
    have hrest : ∀ {q'}, tailOf xs = q' ++ wildcardByte :: t →
        t = [] ∨ ∃ t', t = domainStepByte :: t' := by
      intro q' hq'
      cases xs with
      | nil => simp [tailOf] at hq'
      | cons y ys =>
        cases q' with
        | nil => exact absurd (List.cons.inj hq').1 (by decide)
        | cons b q' =>
          exact ih (fun z hz => hxs z (mem_cons_of_mem _ hz)) (List.cons.inj hq').2
    rw [join_cons] at h
    rcases hxs x mem_cons_self with rfl | hno
    · cases q with
      | nil =>
        rw [← (List.cons.inj h).2]
        cases xs with
        | nil => exact .inl rfl
        | cons y ys => exact .inr ⟨_, rfl⟩
      | cons b q => exact hrest (List.cons.inj h).2
    · rcases append_eq_append_iff.mp h with ⟨a, -, ha⟩ | ⟨a, hx, ha⟩
      · exact hrest ha
      · cases a with
        | nil => exact hrest (show tailOf xs = [] ++ wildcardByte :: t from ha.symm)
        | cons b a =>
          refine absurd ?_ hno
          rw [hx, (List.cons.inj ha).1]
          exact mem_append_right _ mem_cons_self

lemma Word.wildcard_notMem (w : Word) : wildcardByte ∉ w.bytes :=
  fun h => (w.ne_special h).2.1 rfl

lemma starred_patternKeys (S : List Pattern) : Starred (patternKeys S) := by
  intro q t hmem
  obtain ⟨P, -, hP⟩ := mem_map.mp hmem
  refine starred_join _ (fun x hx => ?_) hP
  rcases mem_append.mp hx with hx | hx
  · obtain ⟨l, -, rfl⟩ := mem_map.mp hx
    cases l with
    | star => exact .inl rfl
    | word w => exact .inr w.wildcard_notMem
  · right
    split_ifs at hx
    · rw [mem_singleton.mp hx]
      decide
    · simp at hx

def Label.isStar : Label → Bool
  | star => true
  | word _ => false

def Pattern.StarFree (P : Pattern) : Prop := ∀ l ∈ P.labels, l.isStar = false

lemma mem_join {b : UInt8} {xs : List Str} (h : b ∈ join xs) :
    b = domainStepByte ∨ ∃ x ∈ xs, b ∈ x := by
  induction xs with
  | nil => simp [join] at h
  | cons x xs ih =>
    rw [join_cons] at h
    rcases mem_append.mp h with h | h
    · exact .inr ⟨x, mem_cons_self, h⟩
    · cases xs with
      | nil => simp [tailOf] at h
      | cons y ys =>
        rcases mem_cons.mp h with h | h
        · exact .inl h
        · rcases ih h with h | ⟨z, hz, hb⟩
          · exact .inl h
          · exact .inr ⟨z, mem_cons_of_mem _ hz, hb⟩

lemma Pattern.StarFree.wildcard_notMem {P : Pattern} (h : P.StarFree) :
    wildcardByte ∉ P.stored := by
  intro hmem
  rcases mem_join hmem with hdot | ⟨x, hx, hb⟩
  · exact absurd hdot (by decide)
  · rcases mem_append.mp hx with hx | hx
    · obtain ⟨l, hl, rfl⟩ := mem_map.mp hx
      cases l with
      | star => exact absurd (h _ hl) (by decide)
      | word w => exact w.wildcard_notMem hb
    · split_ifs at hx
      · rw [mem_singleton.mp hx] at hb
        exact absurd hb (by decide)
      · simp at hx

lemma getLast?_join {ds : List Word} (h : ds ≠ []) :
    (join (ds.map Word.bytes)).getLast? ≠ some domainStepByte := by
  induction ds with
  | nil => exact absurd rfl h
  | cons d ds ih =>
    rw [map_cons, join_cons]
    cases ds with
    | nil =>
      rw [map_nil, tailOf, append_nil]
      exact fun hlast => (d.plain _ (mem_of_getLast? hlast)).2 rfl
    | cons e ds =>
      have hne : join ((e :: ds).map Word.bytes) ≠ [] := join_ne_nil (by simp)
      rw [map_cons, tailOf, ← map_cons, getLast?_append_of_ne_nil _ (by simp),
        getLast?_cons_of_ne_nil hne]
      exact ih (by simp)

lemma isKey_key (d : Domain) : IsKey d.key where
  plain b hb := by
    rcases mem_join hb with rfl | ⟨x, hx, hb⟩
    · decide
    · obtain ⟨w, -, rfl⟩ := mem_map.mp hx
      exact (w.plain b hb).1
  dot x hx := getLast?_join d.ne (by rw [← Domain.key, hx, getLast?_concat])

end Ntr.Ruleset
