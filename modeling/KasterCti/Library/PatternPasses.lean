import KasterCti.Library.PatternRuns

/-!
# What a replacement of all matches leaves

A replacement keeps the entries at which no match starts and puts a few entries
in the place of each match: the front of the number, characters without a word
between them, and perhaps a last word. A row of words in the result is
therefore a row of kept words, or it opens with such a last word.
-/

namespace DigitPattern

open WordText

/-- No match is the beginning of another one. -/
def PrefixFree (p : Pattern) : Prop :=
  ∀ x ∈ shapes p.atoms, ∀ y ∈ shapes p.atoms, x <+: y → x = y

/-- No match reaches from before the entries into them. -/
def NotEntered (p : Pattern) (s : List Entry) : Prop :=
  ∀ y x rest, y ≠ [] → x ≠ [] → s = x ++ rest → ¬ Full p (y ++ x)

/-- What stands in the place of a match. -/
structure Leaves (heads : List Nat) (Last : List Entry → Prop) (left : List Entry) : Prop where
  parts : ∃ front stars last, left = front :: stars ++ last ∧ front.2.length ∈ heads ∧
    stars ≠ [] ∧ (∀ e ∈ stars, e.2 = []) ∧ Last last

section Positions

variable {p : Pattern} {s a b m t es rest : List Entry}

theorem kept_append_iff : Kept p (s ++ t) b ↔ Kept p s (t ++ b) ∧ Kept p t b := by
  induction s with
  | nil => simp [Kept]
  | cons e s ih => simp [Kept, ih, and_assoc]

theorem not_full_of_kept (kept : Kept p s b) : ¬ Full p s := by
  intro full
  cases s with
  | nil => exact full_ne_nil full rfl
  | cons e s => exact kept.1 ⟨_, b, (List.cons_append).symm, full⟩

theorem Scan.exists_append (scan : Scan p es rest) : ∃ y, es = y ++ rest := by
  induction scan with
  | here es => exact ⟨[], rfl⟩
  | @keep e es rest _ _ ih =>
    obtain ⟨y, rfl⟩ := ih
    exact ⟨e :: y, rfl⟩
  | @found m es rest _ _ ih =>
    obtain ⟨y, rfl⟩ := ih
    exact ⟨m ++ y, (List.append_assoc _ _ _).symm⟩

theorem full_unique (prefixFree : PrefixFree p) (full : Full p m) (other : Full p t)
    (equal : m ++ a = t ++ b) : m = t ∧ a = b := by
  have inM : m <+: m ++ a := List.prefix_append m a
  have inT : t <+: m ++ a := equal ▸ List.prefix_append t b
  have shapesEqual : runs m = runs t := by
    cases List.prefix_or_prefix_of_prefix inM inT with
    | inl shorter => exact prefixFree _ (full_shape full) _ (full_shape other) (shorter.map _)
    | inr shorter =>
      exact (prefixFree _ (full_shape other) _ (full_shape full) (shorter.map _)).symm
  have length : m.length = t.length := by simpa [runs] using congrArg List.length shapesEqual
  exact List.append_inj equal length

/-- The search reaches the entries that no match reaches into. -/
theorem scan_of_notEntered (outside : NotEntered p s) (a : List Entry) : Scan p (a ++ s) s := by
  cases a with
  | nil => exact .here s
  | cons e a =>
    by_cases begins : Begins p (e :: (a ++ s))
    · obtain ⟨m, rest, equal, full⟩ := begins
      obtain ⟨x, inner, later⟩ | ⟨x, inner, later⟩ :=
        List.append_eq_append_iff.mp (show (e :: a) ++ s = m ++ rest from equal)
      · cases x with
        | nil =>
          rw [List.append_nil] at inner
          rw [← inner]
          exact .found full (.here s)
        | cons f x =>
          exact absurd (inner ▸ full)
            (outside (e :: a) (f :: x) rest (List.cons_ne_nil _ _) (List.cons_ne_nil _ _) later)
      · have shorter : x.length < (e :: a).length := by
          have positive := List.length_pos_iff.mpr (full_ne_nil full)
          rw [inner, List.length_append]
          omega
        rw [inner, List.append_assoc]
        exact .found full (scan_of_notEntered outside x)
    · exact .keep begins (scan_of_notEntered outside a)
termination_by a.length
decreasing_by
  all_goals
    first
    | exact shorter
    | exact Nat.lt_succ_self _

end Positions

section Passes

variable {p : Pattern} {mask : Path → Text} {es out rest s a b m t x : List Entry}
  {heads : List Nat} {Last : List Entry → Prop}

theorem pass_keep_cons {e : Entry} (pass : Pass p mask (e :: es) out)
    (absent : ¬ Begins p (e :: es)) : ∃ later, out = e :: later ∧ Pass p mask es later := by
  generalize start : e :: es = whole at pass
  cases pass with
  | done => exact absurd start (List.cons_ne_nil _ _)
  | keep _ rest =>
    obtain ⟨rfl, rfl⟩ := List.cons.inj start
    exact ⟨_, rfl, rest⟩
  | found reads rest => exact absurd ⟨_, _, start, _, _, reads, rfl⟩ absent

theorem pass_full (prefixFree : PrefixFree p) (full : Full p m)
    (pass : Pass p mask (m ++ es) out) :
    ∃ c path later, Reads p.atoms path ∧ m = entries c (chars path) ∧
      out = entries c (mask path) ++ later ∧ Pass p mask es later := by
  generalize start : m ++ es = whole at pass
  cases pass with
  | done => exact absurd (List.append_eq_nil_iff.mp start).1 (full_ne_nil full)
  | keep absent rest => exact absurd ⟨m, es, start.symm, full⟩ absent
  | found reads rest =>
    obtain ⟨rfl, rfl⟩ := full_unique prefixFree full ⟨_, _, reads, rfl⟩ start
    exact ⟨_, _, _, reads, rfl, rfl, rest⟩

theorem pass_kept (kept : Kept p s es) (pass : Pass p mask (s ++ es) out) :
    ∃ later, out = s ++ later ∧ Pass p mask es later := by
  induction s generalizing out with
  | nil => exact ⟨out, rfl, pass⟩
  | cons e s ih =>
    obtain ⟨later, rfl, passRest⟩ := pass_keep_cons pass kept.1
    obtain ⟨last, rfl, passLast⟩ := ih kept.2 passRest
    exact ⟨last, rfl, passLast⟩

theorem pass_scan (prefixFree : PrefixFree p) (scan : Scan p es rest)
    (pass : Pass p mask es out) : ∃ y later, out = y ++ later ∧ Pass p mask rest later := by
  induction scan generalizing out with
  | here es => exact ⟨[], out, rfl, pass⟩
  | @keep e es rest absent _ ih =>
    obtain ⟨later, rfl, passRest⟩ := pass_keep_cons pass absent
    obtain ⟨y, last, rfl, passLast⟩ := ih passRest
    exact ⟨e :: y, last, rfl, passLast⟩
  | @found m es rest full _ ih =>
    obtain ⟨c, path, later, -, -, rfl, passRest⟩ := pass_full prefixFree full pass
    obtain ⟨y, last, rfl, passLast⟩ := ih passRest
    exact ⟨_ ++ y, last, (List.append_assoc _ _ _).symm, passLast⟩

/-- Entries that no match touches come through. -/
theorem pass_through (prefixFree : PrefixFree p) (outside : NotEntered p (s ++ b))
    (kept : Kept p s b) (pass : Pass p mask (a ++ (s ++ b)) out) :
    ∃ a' b', out = a' ++ (s ++ b') := by
  obtain ⟨y, later, rfl, passRest⟩ := pass_scan prefixFree (scan_of_notEntered outside a) pass
  obtain ⟨last, rfl, -⟩ := pass_kept kept passRest
  exact ⟨y, last, rfl⟩

/-- A match that the search reaches is replaced, and what comes through behind
it then stands behind the last word that the replacement leaves. -/
theorem pass_replaced (prefixFree : PrefixFree p) (scan : Scan p es (m ++ (t ++ b)))
    (full : Full p m) (kept : Kept p t b)
    (leaves : ∀ c path, Reads p.atoms path → Leaves heads Last (entries c (mask path)))
    (pass : Pass p mask es out) :
    ∃ a' star last b', out = a' ++ (star :: last ++ t ++ b') ∧ star.2 = [] ∧ Last last := by
  obtain ⟨y, later, rfl, passRest⟩ := pass_scan prefixFree scan pass
  obtain ⟨c, path, behind, reads, -, rfl, passBehind⟩ := pass_full prefixFree full passRest
  obtain ⟨b', rfl, -⟩ := pass_kept kept passBehind
  obtain ⟨front, stars, last, equal, -, someStar, empties, isLast⟩ := (leaves c path reads).parts
  have lastStar := List.dropLast_append_getLast someStar
  refine ⟨y ++ front :: stars.dropLast, stars.getLast someStar, last, b', ?_,
    empties _ (List.getLast_mem someStar), isLast⟩
  rw [equal]
  conv_lhs => rw [← lastStar]
  simp

/-- Words at the front of the result, if they do not end in a front of a
replacement, are words at which no match starts. -/
theorem kept_of_front
    (leaves : ∀ c path, Reads p.atoms path → Leaves heads Last (entries c (mask path)))
    (pass : Pass p mask es (x ++ b)) (words : ∀ e ∈ x, e.2 ≠ [])
    (ends : ∀ e ∈ x.getLast?, e.2.length ∉ heads) : ∃ b', es = x ++ b' ∧ Kept p x b' := by
  generalize split : x ++ b = out at pass
  induction pass generalizing x with
  | done => exact ⟨[], by simp [(List.append_eq_nil_iff.mp split).1], by
      rw [(List.append_eq_nil_iff.mp split).1]; trivial⟩
  | @keep e es out absent _ ih =>
    cases x with
    | nil => exact ⟨_, rfl, trivial⟩
    | cons f x =>
      obtain ⟨rfl, later⟩ := List.cons.inj split
      obtain ⟨b', rfl, kept⟩ := ih (fun e member => words e (List.mem_cons_of_mem _ member))
        (fun e last => ends e (by
          rw [List.getLast?_cons, Option.mem_def.mp last]
          rfl)) later
      exact ⟨b', rfl, absent, kept⟩
  | @found c path es out reads _ _ =>
    cases x with
    | nil => exact ⟨_, rfl, trivial⟩
    | cons f x =>
      obtain ⟨front, stars, last, equal, head, someStar, empties, -⟩ := (leaves c path reads).parts
      rw [equal] at split
      obtain ⟨star, stars, rfl⟩ := List.exists_cons_of_ne_nil someStar
      obtain ⟨rfl, later⟩ := List.cons.inj split
      cases x with
      | nil => exact absurd head (ends f rfl)
      | cons g x =>
        obtain ⟨rfl, -⟩ := List.cons.inj later
        exact absurd (empties g List.mem_cons_self)
          (words g (List.mem_cons_of_mem _ List.mem_cons_self))

/-- A list that starts with a word does not start among entries without one. -/
theorem append_past_empties {stars : List Entry} (empties : ∀ e ∈ stars, e.2 = []) {e : Entry}
    (word : e.2 ≠ []) (split : stars ++ rest = a ++ e :: s) : ∃ a', rest = a' ++ e :: s := by
  induction stars generalizing a with
  | nil => exact ⟨a, split⟩
  | cons star stars ih =>
    cases a with
    | nil =>
      obtain ⟨rfl, -⟩ := List.cons.inj split
      exact absurd (empties star List.mem_cons_self) word
    | cons f a =>
      exact ih (fun e member => empties e (List.mem_cons_of_mem _ member))
        (List.cons.inj split).2

/-- Words in the result are kept words, or the last word of a replacement with
kept words behind it. -/
theorem words_of_pass
    (leaves : ∀ c path, Reads p.atoms path → Leaves heads Last (entries c (mask path)))
    (short : ∀ last, Last last → last.length ≤ 1) {e : Entry}
    (pass : Pass p mask es (a ++ (e :: s ++ b))) (words : ∀ f ∈ e :: s, f.2 ≠ [])
    (ends : ∀ f ∈ (e :: s).getLast?, f.2.length ∉ heads) :
    (∃ a' b', es = a' ++ (e :: s ++ b') ∧ Kept p (e :: s) b') ∨
      ∃ m b', Full p m ∧ Last [e] ∧ Scan p es (m ++ (s ++ b')) ∧ Kept p s b' := by
  have endsRest : ∀ f ∈ s.getLast?, f.2.length ∉ heads := fun f last => ends f (by
    rw [List.getLast?_cons, Option.mem_def.mp last]
    rfl)
  have wordsRest : ∀ f ∈ s, f.2 ≠ [] := fun f member => words f (List.mem_cons_of_mem _ member)
  generalize split : a ++ (e :: s ++ b) = out at pass
  induction pass generalizing a with
  | done => simp at split
  | @keep f es out absent passRest ih =>
    cases a with
    | nil =>
      obtain ⟨rfl, rfl⟩ := List.cons.inj split
      obtain ⟨b', rfl, kept⟩ := kept_of_front leaves passRest wordsRest endsRest
      exact Or.inl ⟨[], b', rfl, absent, kept⟩
    | cons g a =>
      obtain ⟨-, later⟩ := List.cons.inj split
      obtain ⟨a', b', rfl, kept⟩ | ⟨m, b', full, last, scan, kept⟩ := ih later
      · exact Or.inl ⟨f :: a', b', rfl, kept⟩
      · exact Or.inr ⟨m, b', full, last, .keep absent scan, kept⟩
  | @found c path es out reads passRest ih =>
    have behind {a : List Entry} (later : a ++ (e :: s ++ b) = out) :
        (∃ a' b', entries c (chars path) ++ es = a' ++ (e :: s ++ b') ∧ Kept p (e :: s) b') ∨
          ∃ m b', Full p m ∧ Last [e] ∧ Scan p (entries c (chars path) ++ es) (m ++ (s ++ b')) ∧
            Kept p s b' := by
      obtain ⟨a', b', rfl, kept⟩ | ⟨m, b', full, last, scan, kept⟩ := ih later
      · exact Or.inl ⟨entries c (chars path) ++ a', b', (List.append_assoc _ _ _).symm, kept⟩
      · exact Or.inr ⟨m, b', full, last, .found ⟨c, path, reads, rfl⟩ scan, kept⟩
    obtain ⟨front, stars, last, equal, head, someStar, empties, isLast⟩ := (leaves c path reads).parts
    rw [equal, List.append_assoc] at split
    cases a with
    | nil =>
      -- the words would start with the front of the replacement and end there or at a star
      obtain ⟨rfl, later⟩ := List.cons.inj split
      obtain ⟨star, stars, rfl⟩ := List.exists_cons_of_ne_nil someStar
      cases s with
      | nil => exact absurd head (ends e rfl)
      | cons f s =>
        obtain ⟨rfl, -⟩ := List.cons.inj later
        exact absurd (empties f List.mem_cons_self) (wordsRest f List.mem_cons_self)
    | cons g a =>
      obtain ⟨a', later⟩ := append_past_empties empties (words e List.mem_cons_self)
        (List.cons.inj split).2.symm
      cases last with
      | nil => exact behind later.symm
      | cons f last =>
        have none : last = [] := by
          have atMost := short _ isLast
          simpa using atMost
        subst none
        cases a' with
        | nil =>
          obtain ⟨rfl, rfl⟩ := List.cons.inj later
          obtain ⟨b', rfl, kept⟩ := kept_of_front leaves passRest wordsRest endsRest
          exact Or.inr ⟨entries c (chars path), b', ⟨c, path, reads, rfl⟩, isLast, .here _, kept⟩
        | cons g a' => exact behind (List.cons.inj later).2.symm

end Passes

section Lengths

variable {p : Pattern} {s b : List Entry}

theorem notEntered_of_runs (b : List Entry)
    (apart : ∀ shape ∈ shapes p.atoms, ∀ t ∈ shape.tails.tail, t ≠ [] →
      ¬ t <+: runs s ∧ ¬ runs s <+: t) : NotEntered p (s ++ b) := by
  intro y x rest someY someX split full
  have shape := full_shape full
  rw [runs_append] at shape
  obtain ⟨e, y, rfl⟩ := List.exists_cons_of_ne_nil someY
  have tail : runs x ∈ (runs (e :: y) ++ runs x).tails.tail := by
    simp [List.mem_tails]
  have nonempty : runs x ≠ [] := by
    simpa [runs] using someX
  obtain ⟨notBefore, notBehind⟩ := apart _ shape _ tail nonempty
  have inWhole : runs x <+: runs (s ++ b) := by
    rw [split, runs_append]
    exact List.prefix_append _ _
  cases List.prefix_or_prefix_of_prefix inWhole
    (runs_append s b ▸ List.prefix_append (runs s) (runs b)) with
  | inl shorter => exact notBefore shorter
  | inr longer => exact notBehind longer

theorem kept_of_starts (b : List Entry)
    (starts : ∀ n ∈ runs s, ∀ shape ∈ shapes p.atoms, shape.head? ≠ some n) : Kept p s b := by
  induction s with
  | nil => trivial
  | cons e s ih =>
    rw [runs_cons, List.forall_mem_cons] at starts
    refine ⟨?_, ih starts.2⟩
    rintro ⟨m, rest, split, full⟩
    obtain ⟨f, m, rfl⟩ := List.exists_cons_of_ne_nil (full_ne_nil full)
    obtain ⟨rfl, -⟩ := List.cons.inj split
    exact starts.1 _ (full_shape full) rfl

/-- Where no shape goes on behind the entries, it is enough to look inside them. -/
theorem kept_of_not_has (b : List Entry)
    (within : ∀ t ∈ (runs s).tails, t ≠ [] → ∀ shape ∈ shapes p.atoms, t <+: shape → t = shape)
    (absent : ¬ Has p s) : Kept p s b := by
  induction s with
  | nil => trivial
  | cons e s ih =>
    rw [has_cons_iff, not_or] at absent
    refine ⟨?_, ih (fun t member => within t ?_) absent.2⟩
    · rintro ⟨m, rest, split, full⟩
      obtain ⟨x, inside, -⟩ | ⟨x, inside, -⟩ :=
        List.append_eq_append_iff.mp (show (e :: s) ++ b = m ++ rest from split)
      · have shapeFull := full_shape full
        have equal : runs (e :: s) = runs m := within _ ((List.mem_tails _ _).mpr List.suffix_rfl)
          (List.cons_ne_nil _ _) _ shapeFull
          (inside ▸ runs_append (e :: s) x ▸ List.prefix_append _ _)
        have none : x = [] := by
          rw [inside, runs_append] at equal
          simpa [runs] using equal
        rw [none, List.append_nil] at inside
        exact absent.1 ⟨m, [], by rw [inside, List.append_nil], full⟩
      · exact absent.1 ⟨m, x, inside, full⟩
    · rw [List.mem_tails] at member ⊢
      exact member.trans (List.suffix_cons _ _)

end Lengths

end DigitPattern
