import ContentProbe.Settings.Collector
import ContentProbe.Settings.Probe
import Mathlib.Data.List.DropRight

/-!
Blanks around the value of an environment variable. Numbers, flags, addresses, lists and the texts of the probe
loop are read without them, and a value of nothing but blanks is one that is not set. The directory for dumps and
the endpoint to forward to are taken with the blanks around them, and so they are all that taking the blanks away
can change.
-/

namespace ContentProbe

open ContentProbe.Text ContentProbe.Time

/-! Trimming -/

namespace Text

theorem trimEnd_eq (cs : List Char) : trimEnd cs = cs.rdropWhile isBlank := rfl

theorem not_isBlank_trimStart {cs : List Char} (h : 0 < (trimStart cs).length) : ¬isBlank (trimStart cs)[0] :=
  List.dropWhile_eq_self_iff.mp (List.dropWhile_idempotent isBlank cs) h

/-- What is left begins with no blank, and so nothing more is taken from its start. -/
theorem trimStart_trim (cs : List Char) : trimStart (trim cs) = trim cs := by
  refine List.dropWhile_eq_self_iff.mpr fun hpos => ?_
  have hstart : trim cs <+: trimStart cs := List.rdropWhile_prefix isBlank _
  rw [hstart.getElem hpos]
  exact not_isBlank_trimStart _

theorem trim_trim (cs : List Char) : trim (trim cs) = trim cs := by
  have hend : trimEnd (trim cs) = trim cs := List.rdropWhile_idempotent isBlank _
  rw [trim, trimStart_trim, hend]

theorem trimmed_trimmed (s : String) : trimmed (trimmed s) = trimmed s := by
  rw [trimmed, trimmed, String.toList_ofList, trim_trim]

theorem trim_eq_nil_iff {cs : List Char} : trim cs = [] ↔ ∀ c ∈ cs, isBlank c = true := by
  rw [trim, trimEnd_eq, List.rdropWhile_eq_nil_iff]
  constructor
  · intro h
    -- A start that is not blank would be left.
    have hstart : trimStart cs = [] := by
      by_contra hne
      have hpos : 0 < (trimStart cs).length := List.length_pos_of_ne_nil hne
      exact not_isBlank_trimStart hpos (h _ (List.getElem_mem hpos))
    exact List.dropWhile_eq_nil_iff.mp hstart
  · intro h c hc
    exact h c ((List.dropWhile_suffix isBlank).subset hc)

theorem isEmpty_trimmed (s : String) : (trimmed s).isEmpty = isAllBlank s := by
  have hempty : trimmed s = "" ↔ trim s.toList = [] := by
    rw [trimmed, ← String.toList_inj, String.toList_ofList]
    rfl
  rw [Bool.eq_iff_iff, String.isEmpty_iff, hempty, trim_eq_nil_iff, isAllBlank, List.all_eq_true]

end Text

/-! Environments -/

namespace Environment

/-- The environment without the blanks around the value of a variable. -/
def stripped (e : Environment) (name : String) : Environment :=
  ⟨e.values.map fun (n, value) => (n, if n = name then trimmed value else value)⟩

/-- The environment without a variable. -/
def unset (e : Environment) (name : String) : Environment := ⟨e.values.filter (·.1 ≠ name)⟩

theorem get?_stripped (e : Environment) (name other : String) :
    (e.stripped name).get? other = (e.get? other).map fun value => if other = name then trimmed value else value := by
  obtain ⟨values⟩ := e
  simp only [stripped, get?]
  induction values with
  | nil => rfl
  | cons entry values ih =>
      obtain ⟨n, value⟩ := entry
      by_cases hn : other = n
      · subst hn
        simp
      · simp only [List.map_cons, List.lookup_cons, beq_eq_false_iff_ne.mpr hn, ih]

theorem get?_unset (e : Environment) (name other : String) :
    (e.unset name).get? other = if other = name then none else e.get? other := by
  obtain ⟨values⟩ := e
  simp only [unset, get?]
  induction values with
  | nil => simp
  | cons entry values ih =>
      obtain ⟨n, value⟩ := entry
      by_cases hkept : n = name
      · subst hkept
        rw [List.filter_cons_of_neg (by simp), ih, List.lookup_cons]
        by_cases hother : other = n
        · simp [hother]
        · simp [hother, beq_eq_false_iff_ne.mpr hother]
      · rw [List.filter_cons_of_pos (by simpa using hkept), List.lookup_cons, List.lookup_cons, ih]
        by_cases hother : other = n
        · subst hother
          simp [hkept]
        · simp [beq_eq_false_iff_ne.mpr hother]

/-! What is read without the blanks around it -/

/-- In a value without blanks a reader finds the same, if it finds nothing in the empty text. -/
theorem bind_trim_eq {α : Type} {read : List Char → Option α} (hread : read [] = none) (e : Environment)
    (name : String) :
    ((e.get? name).bind fun value => read (trim value.toList)) =
      (e.text? name).bind fun value => read value.toList := by
  have htrim (value : String) : read (trim value.toList) = read (trimmed value).toList := by
    rw [trimmed, String.toList_ofList]
  rw [text?]
  cases e.get? name with
  | none => rfl
  | some value =>
      rw [Option.bind_some, htrim, Option.map_some, Option.filter_some]
      split
      · rfl
      · rename_i hempty
        have heq : trimmed value = "" := by simpa using hempty
        rw [heq]
        exact hread

theorem nat?_eq (e : Environment) (bound : Nat) (name : String) :
    e.nat? bound name = (e.text? name).bind fun value => readNat? bound value.toList :=
  bind_trim_eq rfl e name

theorem text?_stripped (e : Environment) (name other : String) : (e.stripped name).text? other = e.text? other := by
  rw [text?, text?, get?_stripped, Option.map_map]
  congr 2
  funext value
  rw [Function.comp_apply]
  split
  · exact trimmed_trimmed value
  · rfl

/-- A blank value is no text. -/
theorem text?_unset {e : Environment} {name : String} (hblank : ∀ value ∈ e.get? name, isAllBlank value = true)
    (other : String) : (e.unset name).text? other = e.text? other := by
  rw [text?, text?, get?_unset]
  split
  · subst other
    cases hvalue : e.get? name with
    | none => rfl
    | some value =>
        rw [Option.map_some, Option.filter_some, isEmpty_trimmed, hblank value hvalue]
        rfl
  · rfl

/-! What is read as it stands -/

theorem verbatim?_stripped (e : Environment) (name other : String) :
    (e.stripped name).verbatim? other =
      (e.verbatim? other).map fun value => if other = name then trimmed value else value := by
  rw [verbatim?, verbatim?, get?_stripped]
  cases e.get? other with
  | none => rfl
  | some value =>
      have hblank : isAllBlank (if other = name then trimmed value else value) = isAllBlank value := by
        split
        · rw [← isEmpty_trimmed, trimmed_trimmed, isEmpty_trimmed]
        · rfl
      simp only [Option.map_some, Option.filter_some, hblank]
      split <;> rfl

theorem verbatim?_unset {e : Environment} {name : String} (hblank : ∀ value ∈ e.get? name, isAllBlank value = true)
    (other : String) : (e.unset name).verbatim? other = e.verbatim? other := by
  rw [verbatim?, verbatim?, get?_unset]
  split
  · subst other
    cases hvalue : e.get? name with
    | none => rfl
    | some value =>
        rw [Option.filter_some, hblank value hvalue]
        rfl
  · rfl

end Environment

/-! Settings -/

section

variable {e e' : Environment} (h : ∀ name, e.text? name = e'.text? name)

include h

theorem RunSettings.build_congr (choice : RunChoice) : build e choice = build e' choice := by
  simp only [build, Environment.milliseconds?, Environment.word?, Environment.nat?_eq, h]

theorem ProbeSettings.build_congr : build e = build e' := by
  have haddress (e : Environment) (name : String) :
      ((e.get? name).bind fun value => Address.read? (trim value.toList)) =
        (e.text? name).bind fun value => Address.read? value.toList :=
    e.bind_trim_eq rfl name
  simp only [build, modeOf, socketOf, Environment.flag?, Environment.word?, Environment.nat?_eq, haddress, h]

/-- Apart from its texts, a collector is set by the values without the blanks around them. -/
theorem CollectorSettings.build_congr (choice : CollectorChoice) :
    build e choice = { build e' choice with
      dumpDirectory := (build e choice).dumpDirectory
      forwardEndpoint := (build e choice).forwardEndpoint } := by
  simp only [build, Environment.milliseconds?, Environment.word?, Environment.nat?_eq, h]

end

/-- Taking away the blanks around the value of a variable changes no setting of probe runs and of the probe loop, nor
whether there are any; of the collector it changes the directory for dumps or the endpoint to forward to, if the
variable is the one for these, by the blanks around them. A value of nothing but blanks is one that is not set. -/
theorem blanks_around_settings (e : Environment) (name : String) (collector : CollectorChoice) (run : RunChoice) :
    RunSettings.build (e.stripped name) run = RunSettings.build e run ∧
    ProbeSettings.build (e.stripped name) = ProbeSettings.build e ∧
    CollectorSettings.build (e.stripped name) collector =
      { CollectorSettings.build e collector with
        dumpDirectory := collector.dumpDirectory <|> (e.verbatim? "TIROS_TRACES_OUT").map fun value =>
          if name = "TIROS_TRACES_OUT" then trimmed value else value
        forwardEndpoint := collector.forwardEndpoint <|> (e.verbatim? "TIROS_TRACES_FORWARD_ENDPOINT").map fun value =>
          if name = "TIROS_TRACES_FORWARD_ENDPOINT" then trimmed value else value } ∧
    ((∀ value ∈ e.get? name, isAllBlank value = true) →
      RunSettings.build (e.unset name) run = RunSettings.build e run ∧
      ProbeSettings.build (e.unset name) = ProbeSettings.build e ∧
      CollectorSettings.build (e.unset name) collector = CollectorSettings.build e collector) := by
  have hstripped := e.text?_stripped name
  refine ⟨RunSettings.build_congr hstripped run, ProbeSettings.build_congr hstripped, ?_, fun hblank => ?_⟩
  · rw [CollectorSettings.build_congr hstripped]
    simp only [CollectorSettings.build, Environment.verbatim?_stripped, eq_comm]
  · have hunset := e.text?_unset hblank
    refine ⟨RunSettings.build_congr hunset run, ProbeSettings.build_congr hunset, ?_⟩
    rw [CollectorSettings.build_congr hunset]
    simp only [CollectorSettings.build, e.verbatim?_unset hblank]

/-- An endpoint that stands between blanks, and a directory of nothing else. -/
def padded : Environment :=
  ⟨[("TIROS_TRACES_FORWARD_ENDPOINT", " http://localhost:55680"), ("TIROS_TRACES_OUT", "  ")]⟩

theorem blank_directory_unset :
    (∀ value ∈ padded.get? "TIROS_TRACES_OUT", isAllBlank value = true) ∧
      CollectorSettings.build (padded.unset "TIROS_TRACES_OUT") ⟨none, none, none, none⟩ =
        ⟨32, 10 * second, none, some " http://localhost:55680"⟩ := by
  have hblank : ∀ value ∈ padded.get? "TIROS_TRACES_OUT", isAllBlank value = true := by decide +kernel
  obtain ⟨-, -, -, hunset⟩ :=
    blanks_around_settings padded "TIROS_TRACES_OUT" ⟨none, none, none, none⟩ ⟨none, none, none, none, none, none⟩
  refine ⟨hblank, (hunset hblank).2.2.trans ?_⟩
  decide +kernel

/-- The blanks around an endpoint stay. -/
theorem padded_endpoint_kept :
    ¬∀ (e : Environment) (name : String) (choice : CollectorChoice),
      CollectorSettings.build (e.stripped name) choice = CollectorSettings.build e choice := by
  intro h
  have hendpoint := h padded "TIROS_TRACES_FORWARD_ENDPOINT" ⟨none, none, none, none⟩
  exact absurd hendpoint (by decide +kernel)

end ContentProbe
