import EnvTemplates.Definitions
import EnvTemplates.Proofs.Naming.PascalCase
import EnvTemplates.Proofs.Path.Components
import EnvTemplates.Proofs.Text.Replacement
import EnvTemplates.Proofs.Text.Utf8

/-!
# What stands in an output name

The characters of an output name come from the name of the template or from the styled name of the
environment. No style brings in a slash: Pascal case gives ASCII letters and digits alone, and the
case mappings give a slash for nothing but a slash. So a name that is made of two file names is a
file name itself (`slash_notMem_outputName`).
-/

namespace EnvTemplates

namespace Text

/-! ### Case mappings -/

open CaseData

/-- The tables map nothing to a character. -/
structure Avoids (expansions : List (Nat × List Nat)) (runs : List CaseData.Run) (a : Char) :
    Prop where
  expansions : ∀ e ∈ expansions, a.toNat ∉ e.2
  runs : ∀ r ∈ runs, (a.toNat : Int) < r.first + r.delta ∨ r.last + r.delta < (a.toNat : Int)

/-- The code point of a character. What is no code point at all gives the null character. -/
theorem eq_toNat_of_ofNat {n : Nat} {a : Char} (ha : a ≠ Char.ofNat 0) (h : Char.ofNat n = a) :
    n = a.toNat := by
  rw [Char.ofNat] at h
  split at h
  · rw [← h]
    rfl
  · exact absurd h.symm ha

/-- A character that the tables map nothing to comes from itself alone. -/
theorem mem_mapCase {expansions : List (Nat × List Nat)} {runs : List CaseData.Run} {a c : Char}
    (havoids : Avoids expansions runs a) (ha : a ≠ Char.ofNat 0)
    (h : a ∈ mapCase expansions runs c) : c = a := by
  rw [mapCase] at h
  split at h
  · next expansion hlookup =>
    obtain ⟨before, after, hsplit, -⟩ := List.lookup_eq_some_iff.1 hlookup
    obtain ⟨n, hn, hchar⟩ := List.mem_map.1 h
    rw [eq_toNat_of_ofNat ha hchar] at hn
    have hmem : (c.toNat, expansion) ∈ expansions := by
      rw [hsplit]
      exact List.mem_append_right _ List.mem_cons_self
    exact absurd hn (havoids.expansions _ hmem)
  · split at h
    · next n hmapped =>
      obtain ⟨r, hfind, rfl⟩ := Option.map_eq_some_iff.1 hmapped
      have hn := eq_toNat_of_ofNat ha (List.mem_singleton.1 h).symm
      have hin := List.find?_some hfind
      simp only [Bool.and_eq_true, decide_eq_true_eq] at hin
      rw [Int.ofNat_eq_natCast] at hn
      -- The run would have to go through the character.
      have hruns := havoids.runs r (List.mem_of_find?_eq_some hfind)
      have hzero : a.toNat ≠ 0 := by
        intro hzero
        apply ha
        rw [← hzero, Char.ofNat_toNat]
      omega
    · exact (List.mem_singleton.1 h).symm

theorem avoids_lower_slash : Avoids lowerExpansions lowerRuns '/' :=
  ⟨by decide, by decide +kernel⟩

theorem avoids_upper_slash : Avoids upperExpansions upperRuns '/' :=
  ⟨by decide +kernel, by decide +kernel⟩

theorem lowerSigma_ne_slash (before after : Text) : lowerSigma before after ≠ '/' := by
  rw [lowerSigma]
  split <;> decide

theorem slash_notMem_lower {t : Text} (h : '/' ∉ t) : '/' ∉ t.lower := by
  have hafter : ∀ (t before : Text), '/' ∉ t → '/' ∉ lowerAfter before t := by
    intro t
    induction t with
    | nil => exact fun _ h => h
    | cons c after ih =>
      intro before h
      rw [List.mem_cons, not_or] at h
      rw [lowerAfter, List.mem_append, not_or]
      refine ⟨?_, ih _ h.2⟩
      split
      · rw [List.mem_singleton]
        exact fun heq => lowerSigma_ne_slash before after heq.symm
      · exact fun hmem => h.1 (mem_mapCase avoids_lower_slash (by decide) hmem).symm
  exact hafter t [] h

theorem slash_notMem_upper {t : Text} (h : '/' ∉ t) : '/' ∉ t.upper := by
  rw [upper, List.mem_flatMap]
  rintro ⟨c, hc, hmem⟩
  rw [mem_mapCase avoids_upper_slash (by decide) hmem] at hc
  exact h hc

end Text

/-! ### File names -/

theorem slash_mem_encode_iff (t : Text) : Path.slash ∈ Utf8.encode t ↔ '/' ∈ t := by
  show UInt8.ofNat '/'.toNat ∈ Utf8.encode t ↔ '/' ∈ t
  exact Utf8.byte_mem_encode_iff (by decide) t

theorem Path.slash_notMem_fileNameText? {p : Path} {name : Text}
    (h : p.fileNameText? = some name) : '/' ∉ name := by
  obtain ⟨bytes, hbytes, hdecode⟩ := Option.bind_eq_some_iff.1 h
  rw [← slash_mem_encode_iff, Utf8.encode_of_decode? hdecode]
  exact slash_notMem_fileName? hbytes

/-- The name of an environment is what a file name has before the suffix. -/
theorem Definitions.environmentName_eq_ok_iff {path : Path} {suffix environment : Text} :
    environmentName path suffix = .ok environment ↔
      environment ≠ [] ∧ path.fileNameText? = some (environment ++ suffix) := by
  rw [environmentName]
  constructor
  · intro h
    split at h
    · next c rest hdrop =>
      cases h
      obtain ⟨name, hname, hdrop⟩ := Option.bind_eq_some_iff.1 hdrop
      rw [hname, dropEnd?_eq_some_iff.1 hdrop]
      exact ⟨List.cons_ne_nil c rest, rfl⟩
    · cases h
  · rintro ⟨hne, hname⟩
    obtain ⟨c, rest, rfl⟩ := List.exists_cons_of_ne_nil hne
    rw [hname, Option.bind_some, dropEnd?_eq_some_iff.2 rfl]

theorem Definitions.slash_notMem_environmentName {path : Path} {suffix environment : Text}
    (h : environmentName path suffix = .ok environment) : '/' ∉ environment := by
  obtain ⟨-, hname⟩ := environmentName_eq_ok_iff.1 h
  exact fun hmem => Path.slash_notMem_fileNameText? hname (List.mem_append_left suffix hmem)

/-! ### Output names -/

theorem Marker.slash_notMem_style (m : Marker) {environment : Text} (h : '/' ∉ environment) :
    '/' ∉ m.style environment := by
  cases m with
  | pascal =>
    intro hmem
    exact absurd (Text.isAlphanum_of_mem_pascalCase hmem) (by decide)
  | lower => exact Text.slash_notMem_lower h
  | upper => exact Text.slash_notMem_upper h

theorem prefix_withoutSuffix (suffix template : Text) :
    withoutSuffix suffix template <+: template := by
  rw [withoutSuffix]
  cases hdrop : dropEnd? suffix template with
  | none => exact List.prefix_rfl
  | some rest => exact ⟨suffix, (dropEnd?_eq_some_iff.1 hdrop).symm⟩

/-- **An output name is a file name**, if it is made of file names. -/
theorem slash_notMem_outputName {template environment : Text} (suffix : Text)
    (htemplate : '/' ∉ template) (henvironment : '/' ∉ environment) :
    '/' ∉ outputName template environment suffix := by
  have hstripped : '/' ∉ withoutSuffix suffix template :=
    fun h => htemplate ((prefix_withoutSuffix suffix template).subset h)
  rw [outputName]
  split
  · exact hstripped
  · next m _ =>
    intro hmem
    rcases Text.mem_of_mem_replaceIgnoringCase hmem with hmem | hmem
    · exact hstripped hmem
    · have hstyle := m.slash_notMem_style henvironment
      simp [hstyle] at hmem

end EnvTemplates
