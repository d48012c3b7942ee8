import Mathlib.Data.List.DropRight
import Mathlib.Logic.Relation
import EnvTemplates.Proofs.Variables.History

/-!
# What a text declares does not depend on its layout

`print` writes variables down, each on a line of its own. Not all variables can be read back: a line
is trimmed, and its key ends at the first `=`. `Variable.IsWritable` says which variables a line can
declare, and those are the variables that a text can give (`exists_parse_eq_iff`). They are read
back as they were written (`parse_print`).

Beyond its declarations a text has a layout: how its lines end, the blanks around them, and the
lines that say nothing. A change of the layout (`Relaid`) changes no declaration
(`Relaid.declarations_eq`).
-/

namespace EnvTemplates

/-! ### Variables that can be written down -/

namespace Variable

/-- A line can declare a variable. -/
structure IsWritable (v : Variable) : Prop where
  key_free : '=' ∉ v.key ∧ '\n' ∉ v.key
  key_first : ∀ c, v.key.head? = some c → Text.isBlank c = false ∧ c ≠ '#'
  value_free : '\n' ∉ v.value
  value_last : ∀ c, v.value.getLast? = some c → Text.isBlank c = false

theorem head?_toDeclaration (v : Variable) :
    v.toDeclaration.head? = some (v.key.head?.getD '=') := by
  rw [toDeclaration, List.head?_append]
  cases v.key.head? <;> rfl

theorem getLast?_toDeclaration (v : Variable) :
    v.toDeclaration.getLast? = some (v.value.getLast?.getD '=') := by
  rw [toDeclaration, List.getLast?_append, List.getLast?_cons]
  rfl

theorem newline_mem_toDeclaration_iff {v : Variable} :
    '\n' ∈ v.toDeclaration ↔ '\n' ∈ v.key ∨ '\n' ∈ v.value := by
  simp [toDeclaration]

variable {v : Variable}

theorem IsWritable.trims (h : v.IsWritable) : Text.Trims v.toDeclaration v.toDeclaration := by
  apply Text.trims_self
  · intro c hc
    rw [head?_toDeclaration] at hc
    cases hkey : v.key.head? with
    | none =>
      rw [hkey] at hc
      cases hc
      decide
    | some d =>
      rw [hkey] at hc
      cases hc
      exact (h.key_first _ hkey).1
  · intro c hc
    rw [getLast?_toDeclaration] at hc
    cases hvalue : v.value.getLast? with
    | none =>
      rw [hvalue] at hc
      cases hc
      decide
    | some d =>
      rw [hvalue] at hc
      cases hc
      exact h.value_last _ hvalue

theorem IsWritable.not_saysNothing (h : v.IsWritable) : ¬ SaysNothing v.toDeclaration := by
  rintro (hnil | hcomment)
  · exact List.append_ne_nil_of_right_ne_nil _ (List.cons_ne_nil _ _) hnil
  · rw [head?_toDeclaration, Option.some.injEq] at hcomment
    cases hkey : v.key.head? with
    | none =>
      rw [hkey] at hcomment
      exact absurd hcomment (by decide)
    | some d =>
      rw [hkey] at hcomment
      exact (h.key_first d hkey).2 hcomment

/-- The core of a line declares only what can be written down. -/
theorem IsDeclared.isWritable {line core : Text} (hline : '\n' ∉ line)
    (htrims : Text.Trims line core) (hspeaks : ¬ SaysNothing core) (h : v.IsDeclared core) :
    v.IsWritable := by
  have hfree : '\n' ∉ core := by
    obtain ⟨front, back, rfl, -, -⟩ := htrims.split
    exact fun hmem => hline (List.mem_append_left back (List.mem_append_right front hmem))
  have hfirst : ∀ c, core.head? = some c → Text.isBlank c = false ∧ c ≠ '#' := by
    intro c hc
    refine ⟨htrims.first c hc, ?_⟩
    rintro rfl
    exact hspeaks (Or.inr hc)
  rcases h.core_eq with rfl | ⟨rfl, hvalue⟩
  · rw [newline_mem_toDeclaration_iff, not_or] at hfree
    refine ⟨⟨h.key, hfree.1⟩, fun c hc => ?_, hfree.2, fun c hc => ?_⟩
    · apply hfirst
      rw [head?_toDeclaration, hc]
      rfl
    · apply htrims.last
      rw [getLast?_toDeclaration, hc]
      rfl
  · -- Without `=` the whole core is the key.
    refine ⟨⟨h.key, hfree⟩, hfirst, ?_, fun c hc => ?_⟩
    · rw [hvalue]
      exact List.not_mem_nil
    · rw [hvalue] at hc
      cases hc

end Variable

namespace Variables

variable {v : Variable} {text line core before gap after : Text}

/-! ### One line -/

theorem declarations_of_oneLine (h : '\n' ∉ line) :
    declarations line = (declaration? line).toList := by
  rw [declarations, Text.lines_of_oneLine h]
  cases hline : declaration? line with
  | none => rw [List.filterMap_cons_none hline]; rfl
  | some v => rw [List.filterMap_cons_some hline]; rfl

theorem declaration?_toDeclaration (h : v.IsWritable) :
    declaration? v.toDeclaration = some v := by
  have htrim := h.trims.trim_eq
  have hspeaks := h.not_saysNothing
  rw [← htrim] at hspeaks
  rw [declaration?_eq_some hspeaks, htrim, Variable.ofDeclaration_eq_iff.2]
  exact ⟨h.key_free.1, Or.inl rfl⟩

theorem isWritable_of_declaration? (hline : '\n' ∉ line) (h : declaration? line = some v) :
    v.IsWritable := by
  have hspeaks : ¬ SaysNothing line.trim := by
    intro hnothing
    rw [declaration?_eq_none hnothing] at h
    cases h
  rw [declaration?_eq_some hspeaks, Option.some.injEq, Variable.ofDeclaration_eq_iff] at h
  exact h.isWritable hline (Text.trims_trim line) hspeaks

/-! ### Reading what was written -/

theorem declarations_print (l : List Variable) (h : ∀ v ∈ l, v.IsWritable) :
    declarations (l.flatMap fun v => v.toDeclaration ++ ['\n']) = l := by
  induction l with
  | nil => rfl
  | cons v l ih =>
    obtain ⟨hv, hl⟩ := List.forall_mem_cons.1 h
    have hline : '\n' ∉ v.toDeclaration := by
      rw [Variable.newline_mem_toDeclaration_iff, not_or]
      exact ⟨hv.key_free.2, hv.value_free⟩
    rw [List.flatMap_cons, List.append_assoc, List.singleton_append, declarations_append, ih hl,
      declarations_of_oneLine hline, declaration?_toDeclaration hv]
    rfl

/-- Variables that can be written down are read back as they were. -/
theorem parse_print {vs : Variables} (h : ∀ v ∈ vs.toList, v.IsWritable) :
    parse (print vs) = vs := by
  apply eq_of_toList_eq
  rw [parse, print, declarations_print vs.toList h, (reached_ofList vs.toList).toList_eq,
    keepLast_of_nodup vs.distinct]

/-- Every variable that a text gives can be written down. -/
theorem isWritable_of_mem_parse (h : v ∈ (parse text).toList) : v.IsWritable := by
  rw [parse, (reached_ofList _).toList_eq, mem_keepLast_iff] at h
  obtain ⟨front, back, hdeclared, -⟩ := h
  have hmem : v ∈ declarations text := by
    rw [hdeclared]
    exact List.mem_append_right front List.mem_cons_self
  obtain ⟨line, hline, hv⟩ := List.mem_filterMap.1 hmem
  exact isWritable_of_declaration? ((Text.lines_eq_iff.1 rfl).free line hline) hv

/-- **The variables that a text can give** are those that can be written down. -/
theorem exists_parse_eq_iff {vs : Variables} :
    (∃ text, parse text = vs) ↔ ∀ v ∈ vs.toList, v.IsWritable := by
  constructor
  · rintro ⟨text, rfl⟩ v hv
    exact isWritable_of_mem_parse hv
  · exact fun h => ⟨print vs, parse_print h⟩

/-! ### Where lines start and end -/

/-- A line starts behind a text: there is nothing, or it ends with a line feed. -/
def StartsLine (before : Text) : Prop := before = [] ∨ ∃ front, before = front ++ ['\n']

/-- A line ends in front of a text: there is nothing, or it starts with a line feed. -/
def EndsLine (after : Text) : Prop := after = [] ∨ ∃ rest, after = '\n' :: rest

theorem declarations_of_startsLine (h : StartsLine before) (after : Text) :
    declarations (before ++ after) = declarations before ++ declarations after := by
  rcases h with rfl | ⟨front, rfl⟩
  · rfl
  · have hfront : declarations (front ++ ['\n']) = declarations front := by
      rw [declarations_append front []]
      exact List.append_nil _
    rw [List.append_assoc, List.singleton_append, declarations_append, hfront]

theorem declarations_of_endsLine (before : Text) (h : EndsLine after) :
    declarations (before ++ after) = declarations before ++ declarations after := by
  rcases h with rfl | ⟨rest, rfl⟩
  · rw [List.append_nil]
    exact (List.append_nil _).symm
  · have hrest : declarations ('\n' :: rest) = declarations rest := declarations_append [] rest
    rw [declarations_append, hrest]

/-- A text starts with a line. -/
theorem exists_firstLine (text : Text) :
    ∃ line after, text = line ++ after ∧ '\n' ∉ line ∧ EndsLine after := by
  refine ⟨text.takeWhile (· != '\n'), text.dropWhile (· != '\n'), ?_, fun hmem => ?_, ?_⟩
  · exact List.takeWhile_append_dropWhile.symm
  · exact absurd (List.mem_takeWhile_imp hmem) (by simp)
  · cases hrest : text.dropWhile (· != '\n') with
    | nil => exact Or.inl rfl
    | cons c rest =>
      have hhead := List.head?_dropWhile_not (· != '\n') text
      rw [hrest] at hhead
      obtain rfl : c = '\n' := by simpa using hhead
      exact Or.inr ⟨rest, rfl⟩

/-- A text ends with a line: it is the first one from behind. -/
theorem exists_lastLine (text : Text) :
    ∃ before line, text = before ++ line ∧ '\n' ∉ line ∧ StartsLine before := by
  obtain ⟨line, after, hsplit, hfree, hends⟩ := exists_firstLine text.reverse
  refine ⟨after.reverse, line.reverse, ?_, mt List.mem_reverse.1 hfree, ?_⟩
  · rw [← List.reverse_append, ← hsplit, List.reverse_reverse]
  · rcases hends with rfl | ⟨rest, rfl⟩
    · exact Or.inl rfl
    · exact Or.inr ⟨rest.reverse, List.reverse_cons⟩

/-! ### Changes of the layout -/

/-- Blanks on one line. -/
structure IsGap (gap : Text) : Prop where
  blank : Text.AllBlank gap
  oneLine : '\n' ∉ gap

/-- A blank line or a comment. -/
structure IsSilent (line : Text) : Prop where
  oneLine : '\n' ∉ line
  silent : ∃ core, Text.Trims line core ∧ SaysNothing core

/-- A text is changed to another one in its layout only, at one place. -/
inductive Relaid : Text → Text → Prop
  /-- A line feed gets a carriage return in front of it. -/
  | lineEnd (before after : Text) :
      Relaid (before ++ '\n' :: after) (before ++ '\r' :: '\n' :: after)
  | indented {before gap after : Text} : StartsLine before → IsGap gap →
      Relaid (before ++ after) (before ++ gap ++ after)
  | trailing {before gap after : Text} : EndsLine after → IsGap gap →
      Relaid (before ++ after) (before ++ gap ++ after)
  | inserted {before line after : Text} : StartsLine before → IsSilent line →
      Relaid (before ++ after) (before ++ line ++ '\n' :: after)
  /-- The last line need not end with a line feed. -/
  | appended {text line : Text} : IsSilent line → Relaid text (text ++ '\n' :: line)

theorem IsSilent.declarations_eq (h : IsSilent line) : declarations line = [] := by
  obtain ⟨core, htrims, hnothing⟩ := h.silent
  rw [← htrims.trim_eq] at hnothing
  rw [declarations_of_oneLine h.oneLine, declaration?_eq_none hnothing]
  rfl

/-- Blanks around a line make no difference. -/
theorem declarations_surround {left right : Text} (hline : '\n' ∉ line) (hleft : IsGap left)
    (hright : IsGap right) : declarations (left ++ line ++ right) = declarations line := by
  have hall : '\n' ∉ left ++ line ++ right := by
    simp [hline, hleft.oneLine, hright.oneLine]
  have htrim : (left ++ line ++ right).trim = line.trim :=
    ((Text.trims_trim line).surround hleft.blank hright.blank).trim_eq
  rw [declarations_of_oneLine hall, declarations_of_oneLine hline, declaration?, declaration?,
    htrim]

theorem isGap_nil : IsGap [] :=
  ⟨fun _ hc => absurd hc List.not_mem_nil, List.not_mem_nil⟩

theorem declarations_indented (hgap : IsGap gap) (after : Text) :
    declarations (gap ++ after) = declarations after := by
  obtain ⟨line, rest, rfl, hline, hends⟩ := exists_firstLine after
  have hfirst := declarations_surround hline hgap isGap_nil
  rw [List.append_nil] at hfirst
  rw [← List.append_assoc, declarations_of_endsLine _ hends, hfirst,
    declarations_of_endsLine line hends]

theorem declarations_trailing (before : Text) (hgap : IsGap gap) :
    declarations (before ++ gap) = declarations before := by
  obtain ⟨front, line, rfl, hline, hstarts⟩ := exists_lastLine before
  have hlast := declarations_surround hline isGap_nil hgap
  rw [List.nil_append] at hlast
  rw [List.append_assoc, declarations_of_startsLine hstarts, hlast,
    declarations_of_startsLine hstarts]

/-- The step lemma: one change of the layout changes no declaration. -/
theorem Relaid.declarations_eq {text' : Text} (h : Relaid text text') :
    declarations text' = declarations text := by
  cases h with
  | lineEnd before after =>
    have hgap : IsGap ['\r'] := ⟨fun c hc => by rw [List.mem_singleton.1 hc]; rfl, by decide⟩
    have hends : EndsLine ('\n' :: after) := Or.inr ⟨after, rfl⟩
    rw [← List.singleton_append, ← List.append_assoc, declarations_of_endsLine _ hends,
      declarations_trailing before hgap, declarations_of_endsLine before hends]
  | @indented before gap after hstarts hgap =>
    rw [List.append_assoc, declarations_of_startsLine hstarts, declarations_indented hgap,
      declarations_of_startsLine hstarts]
  | @trailing before gap after hends hgap =>
    rw [declarations_of_endsLine _ hends, declarations_trailing before hgap,
      declarations_of_endsLine before hends]
  | @inserted before line after hstarts hline =>
    rw [declarations_append, declarations_of_startsLine hstarts, hline.declarations_eq,
      List.append_nil, declarations_of_startsLine hstarts]
  | appended hline =>
    rw [declarations_append, hline.declarations_eq, List.append_nil]

/-- The run lemma: neither do any changes of the layout, made or taken back. -/
theorem parse_eq_of_relaid {text' : Text} (h : Relation.EqvGen Relaid text text') :
    parse text = parse text' := by
  induction h with
  | rel a b hab => rw [parse, parse, hab.declarations_eq]
  | refl a => rfl
  | symm a b _ ih => exact ih.symm
  | trans a b c _ _ hab hbc => exact hab.trans hbc

/-- **Variables can be written down and read back, and the layout makes no difference.** What a text
gives comes back in its order from the lines that are written for it, and so do all variables that
can be written down; a text can give no others. Carriage returns at the ends of lines, blanks around
lines and lines that say nothing can be put in or taken out anywhere. -/
theorem parse_forgets_layout :
    (∀ text : Text, parse (print (parse text)) = parse text) ∧
    (∀ vs : Variables, (∀ v ∈ vs.toList, v.IsWritable) → parse (print vs) = vs) ∧
    (∀ vs : Variables, (∃ text, parse text = vs) ↔ ∀ v ∈ vs.toList, v.IsWritable) ∧
    ∀ text text' : Text, Relation.EqvGen Relaid text text' → parse text = parse text' := by
  refine ⟨fun text => ?_, fun vs h => parse_print h, fun vs => exists_parse_eq_iff,
    fun text text' h => parse_eq_of_relaid h⟩
  exact parse_print fun v hv => isWritable_of_mem_parse hv

/-- A variable without key or value, and one with a blank at the end of its key and, in its value,
an equals sign and a carriage return. -/
def unusual : Variables where
  toList := [⟨[], []⟩, ⟨"A ".toList, "b=\rc".toList⟩]
  distinct := by decide

/-- They come back, and a text gets a carriage return, an indentation and a comment. -/
theorem parse_forgets_layout_unusual :
    (∀ v ∈ unusual.toList, v.IsWritable) ∧ parse (print unusual) = unusual ∧
      (∃ text, parse text = unusual) ∧
      Relation.EqvGen Relaid "A=1\nB=2".toList " A=1\r\n# x\nB=2".toList ∧
      parse "A=1\nB=2".toList = parse " A=1\r\n# x\nB=2".toList := by
  have hwritable : ∀ v ∈ unusual.toList, v.IsWritable := by
    rw [unusual, List.forall_mem_cons, List.forall_mem_singleton]
    constructor
    · exact ⟨by decide, by rintro c ⟨⟩, by decide, by rintro c ⟨⟩⟩
    · refine ⟨by decide, ?_, by decide, ?_⟩
      · rintro c ⟨⟩
        decide
      · rintro c ⟨⟩
        decide
  have hended : Relaid "A=1\nB=2".toList "A=1\r\nB=2".toList :=
    Relaid.lineEnd "A=1".toList "B=2".toList
  have hindented : Relaid "A=1\r\nB=2".toList " A=1\r\nB=2".toList := by
    refine @Relaid.indented [] " ".toList "A=1\r\nB=2".toList (Or.inl rfl) ⟨?_, by decide⟩
    intro c hc
    rw [List.mem_singleton.1 hc]
    rfl
  have hinserted : Relaid " A=1\r\nB=2".toList " A=1\r\n# x\nB=2".toList := by
    refine @Relaid.inserted " A=1\r\n".toList "# x".toList "B=2".toList
      (Or.inr ⟨" A=1\r".toList, rfl⟩) ⟨by decide, "# x".toList, Text.trims_self ?_ ?_, Or.inr rfl⟩
    · rintro c ⟨⟩
      rfl
    · rintro c ⟨⟩
      rfl
  have hrelaid : Relation.EqvGen Relaid "A=1\nB=2".toList " A=1\r\n# x\nB=2".toList :=
    .trans _ _ _ (.rel _ _ hended) (.trans _ _ _ (.rel _ _ hindented) (.rel _ _ hinserted))
  obtain ⟨-, hprint, himage, hlayout⟩ := parse_forgets_layout
  exact ⟨hwritable, hprint unusual hwritable, (himage unusual).2 hwritable, hrelaid,
    hlayout _ _ hrelaid⟩

end Variables

end EnvTemplates
