import PlotLisp.Session
import PlotLisp.Proofs.Reader.RoundTrip

/-!
# What values are read back as

A value can hold atoms that no program can be written with: complex numbers, numbers
that are not finite, and the absent value. The written form of a complex number is
refused when it begins with a digit. All the others are words that do not, and such a
word is a symbol. So a value with one of them is read back as another one.
-/

namespace PlotLisp

namespace Atom

/-- The numbers that are not finite are written as words. -/
theorem text_of_not_finite {x : Float} (special : x.isFinite = false) :
    Number.text x = "NaN" ∨ Number.text x = "inf" ∨ Number.text x = "-inf" := by
  have value : (Number.decoded x).isFinite = false := special
  rw [Number.text]
  by_cases number : x.isNaN = true
  · exact .inl (if_pos number)
  · have infinite : x.isInf = true := by
      show (Number.decoded x).isInf = true
      have kind : ¬ (Number.decoded x).isNaN = true := number
      cases decoded : Number.decoded x <;> simp_all [Float.Model.UnpackedFloat.isFinite,
        Float.Model.UnpackedFloat.isInf, Float.Model.UnpackedFloat.isNaN]
    rw [if_neg number, if_pos infinite]
    split
    · exact .inr (.inr rfl)
    · exact .inr (.inl rfl)

/-- Numbers are written as one word, whatever their kind. -/
theorem legible_number (x : Float) : (number x).Legible := by
  by_cases finite : x.isFinite = true
  · exact Scanner.isWord_iff.mpr ⟨text_ne_empty finite, delimits_text finite⟩
  · show Scanner.isWord (Number.text x) = true
    rcases text_of_not_finite (Bool.eq_false_iff.mpr finite) with word | word | word
    all_goals
      rw [word]
      decide

/-- A complex number is written as its parts with a comma between them. -/
theorem toList_text_complex (z : Complex) :
    z.text.toList = (Number.text z.real).toList ++ ',' :: (Number.text z.imaginary).toList := by
  simp [Complex.text]

/-- Complex numbers are written as one word, too. -/
theorem legible_complex (z : Complex) : (complex z).Legible := by
  have real := Scanner.isWord_iff.mp (legible_number z.real)
  have imaginary := Scanner.isWord_iff.mp (legible_number z.imaginary)
  refine Scanner.isWord_iff.mpr ⟨fun empty => ?_, fun c member => ?_⟩
  · have nothing := congrArg String.toList empty
    rw [render, toList_text_complex] at nothing
    simp at nothing
  · rw [render, toList_text_complex] at member
    rcases List.mem_append.mp member with before | behind
    · exact real.2 c before
    · rcases List.mem_cons.mp behind with rfl | behind
      · rfl
      · exact imaginary.2 c behind

/-- No complex number is written like a numeral, because of the comma. -/
theorem numeral?_complex (z : Complex) : numeral? z.text = none := by
  rw [numeral?, Number.read?, Option.map_eq_none_iff]
  cases read : Number.Decimal.read? z.text.toList with
  | none => rfl
  | some decimal =>
      have comma : ',' ∈ z.text.toList := by
        rw [toList_text_complex]
        exact List.mem_append_right _ List.mem_cons_self
      cases Number.Decimal.isNumeric_of_read? read ',' comma

/-- The written form begins with a digit and is no numeral. -/
def isRefused : Atom → Bool
  | complex z => z.real.isFinite && !Number.isNegative z.real
  | _ => false

/-- A complex number is refused when its real part is finite and has no minus sign, and
read as a symbol otherwise. -/
theorem reread_complex (z : Complex) :
    (complex z).reread = if (complex z).isRefused then absent else symbol z.text := by
  show ofWord z.text = if z.real.isFinite && !Number.isNegative z.real then absent else _
  rw [ofWord, numeral?_complex]
  dsimp only
  rw [toList_text_complex]
  by_cases finite : z.real.isFinite = true
  · obtain ⟨first, rest, written, digit, -⟩ := text_eq_cons finite
    rw [written, finite]
    cases Number.isNegative z.real with
    | true => rfl
    | false => exact if_pos digit
  · have special := Bool.eq_false_iff.mpr finite
    rw [special]
    rcases text_of_not_finite special with word | word | word
    all_goals
      rw [word]
      rfl

/-- A number that is not finite is read back as the symbol that its text spells. -/
theorem reread_number (x : Float) :
    (number x).reread = if x.isFinite then number x else symbol (Number.text x) := by
  by_cases finite : x.isFinite = true
  · rw [if_pos finite]
    exact ofWord_text finite
  · rw [if_neg finite]
    show ofWord (Number.text x) = _
    rcases text_of_not_finite (Bool.eq_false_iff.mpr finite) with word | word | word
    all_goals
      rw [word]
      rfl

/-- A text or a symbol is one that a program can be written with. -/
def Worded : Atom → Prop
  | text content => (text content).Writable
  | symbol name => (symbol name).Writable
  | absent | number _ | complex _ => True

variable {atom : Atom}

/-- Atoms that are no strange texts or symbols are legible, special numbers and the absent
one included. -/
theorem Worded.legible (worded : atom.Worded) : atom.Legible := by
  cases atom with
  | absent => exact (by decide : Scanner.isWord "NONE" = true)
  | number x => exact legible_number x
  | complex z => exact legible_complex z
  | symbol => exact Writable.legible worded
  | text => exact Writable.legible worded

/-- Such an atom is read back as nothing just when its written form is refused. -/
theorem Worded.isAbsent_reread (worded : atom.Worded) :
    atom.reread.isAbsent = atom.isRefused := by
  cases atom with
  | absent => rfl
  | number x =>
      rw [reread_number]
      split <;> rfl
  | complex z =>
      rw [reread_complex]
      cases (complex z).isRefused <;> rfl
  | symbol name =>
      have writable : (symbol name).Writable := worded
      rw [writable.reread_eq]
      rfl
  | text => rfl

/-- Only the atoms that a program can be written with are read back as themselves. -/
theorem Worded.reread_eq_iff (worded : atom.Worded) : atom.reread = atom ↔ atom.Writable := by
  refine ⟨fun same => ?_, Writable.reread_eq⟩
  cases atom with
  | absent => cases same
  | number x =>
      rw [reread_number] at same
      split at same
      · next finite => exact finite
      · cases same
  | complex z =>
      rw [reread_complex] at same
      split at same <;> cases same
  | symbol | text => exact worded

end Atom

namespace Expression

variable {expression : Expression}

/-- What two properties imply together holds of every atom if both do. -/
theorem EveryAtom.imp₂ {Holds Also Then : Atom → Prop} (every : expression.EveryAtom Holds)
    (also : expression.EveryAtom Also) (implies : ∀ atom, Holds atom → Also atom → Then atom) :
    expression.EveryAtom Then := by
  induction every with
  | node here _ inductionHypothesis =>
      obtain ⟨hereAlso, deeperAlso⟩ := also
      exact .node (implies _ here hereAlso) fun child member =>
        inductionHypothesis child member (deeperAlso child member)

/-- An expression that is read back without a change apart from properties has only
atoms that are. -/
theorem EveryAtom.of_reread_eq_skeleton {Holds : Atom → Prop}
    (every : expression.EveryAtom Holds) (same : expression.reread = expression.skeleton) :
    expression.EveryAtom fun atom => atom.reread = atom := by
  induction every with
  | node _ _ inductionHypothesis =>
      rw [reread, skeleton, rereadAll_eq_map, skeletons_eq_map] at same
      injection same with heads children
      exact .node heads fun child member =>
        inductionHypothesis child member (List.map_inj_left.mp children child member)

/-- What the written form of a value is read back as. It is refused when the value is
absent or has a complex number whose real part is finite without a minus sign; it is the
value when all its atoms are finite numbers, texts, and symbols; and whenever it is
anything, it is the value with every atom read back on its own. -/
theorem ofSource_text_of_worded (worded : expression.EveryAtom Atom.Worded) :
    ((∃ error, ofSource expression.text = .error error) ↔ expression.isAbsent = true ∨
      ¬ expression.EveryAtom fun atom => atom.isRefused = false) ∧
    (ofSource expression.text = .ok expression.skeleton ↔
      expression.EveryAtom Atom.Writable) ∧
    ∀ tree, ofSource expression.text = .ok tree → tree = expression.reread := by
  have accepted : expression.Accepted ↔ expression.EveryAtom fun atom => atom.isRefused = false :=
    ⟨fun every => worded.imp₂ every fun _ worded present => worded.isAbsent_reread ▸ present,
      fun every => worded.imp₂ every fun _ worded present => worded.isAbsent_reread ▸ present⟩
  rw [← accepted]
  cases missing : expression.isAbsent with
  | true =>
      have head : expression.head = .absent := by
        have both := missing
        rw [isAbsent, Bool.and_eq_true] at both
        cases kind : expression.head <;> simp_all [Atom.isAbsent]
      have refused : ofSource expression.text = .error (.unexpectedAtom "NONE" 1) := by
        rw [text, if_pos missing, head]
        rfl
      rw [refused]
      refine ⟨⟨fun _ => .inl rfl, fun _ => ⟨_, rfl⟩⟩, ⟨by simp, fun writable => ?_⟩, by simp⟩
      obtain ⟨here, -⟩ := writable
      have here : Atom.absent.Writable := head ▸ here
      exact here.elim
  | false =>
      -- What is read back has each atom read again, and is the same only if every atom is.
      obtain ⟨read, refused⟩ := ofSource_text (worded.imp fun _ => Atom.Worded.legible) missing
      by_cases every : expression.Accepted
      · rw [read every]
        refine ⟨⟨by simp, fun wrong => ?_⟩, ⟨fun same => ?_, fun writable => ?_⟩, ?_⟩
        · rcases wrong with absent | not
          · cases absent
          · exact absurd every not
        · have atoms := worded.of_reread_eq_skeleton (Except.ok.inj same)
          exact worded.imp₂ atoms fun _ worded same => worded.reread_eq_iff.mp same
        · exact congrArg _ (writable.imp fun _ => Atom.Writable.reread_eq).reread_eq_skeleton
        · exact fun tree same => (Except.ok.inj same).symm
      · obtain ⟨error, stopped⟩ := refused every
        rw [stopped]
        exact ⟨⟨fun _ => .inr every, fun _ => ⟨error, rfl⟩⟩,
          ⟨by simp, fun writable => absurd writable.accepted every⟩, by simp⟩

end Expression

/-- The opposite of the imaginary unit has the written form of a symbol. -/
theorem negated_unit_is_read_as_symbol :
    ∃ session, Session.fresh.run 3 "(- I)" = some (.ok (.complex ⟨-0.0, -1⟩), session) ∧
      Expression.ofSource (Expression.complex ⟨-0.0, -1⟩).text = .ok (.symbol "-0,-1") := by
  have written : (Expression.complex ⟨-0.0, -1⟩).text = "(-0,-1)" := by decide +kernel
  refine ⟨_, rfl, ?_⟩
  rw [written]
  rfl

end PlotLisp
