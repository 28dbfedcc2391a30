import ContentProbe.Proofs.Json.Doubles
import ContentProbe.Proofs.Text.Injectivity
import ContentProbe.Trace.Dump

/-!
Batches as documents. The text of a batch is a document, which no two batches share if they hold no doubles: values
of each kind have a field of their own, a missing value is not one that holds nothing, and each text tells the
number or the bytes that it was written for. Doubles are left out, since what is not finite is written as `null`.
-/

namespace ContentProbe.Wire

open ContentProbe.Text

/-! Batches without doubles -/

mutual

/-- The value holds no double at any depth. -/
def Value.DoubleFree : Value → Prop
  | .double _ => False
  | .array items => ItemsDoubleFree items
  | .table entries => EntriesDoubleFree entries
  | _ => True

def ItemsDoubleFree : List Value → Prop
  | [] => True
  | item :: items => item.DoubleFree ∧ ItemsDoubleFree items

def EntriesDoubleFree : List (String × Option Value) → Prop
  | [] => True
  | (_, none) :: entries => EntriesDoubleFree entries
  | (_, some value) :: entries => value.DoubleFree ∧ EntriesDoubleFree entries

end

def Attribute.DoubleFree (a : Attribute) : Prop := ∀ value ∈ a.value, value.DoubleFree

/-- No attribute holds a double, be it of the span, of an event or of a link. -/
structure Span.DoubleFree (s : Span) : Prop where
  attributes : ∀ a ∈ s.attributes, a.DoubleFree
  events : ∀ e ∈ s.events, ∀ a ∈ e.attributes, a.DoubleFree
  links : ∀ l ∈ s.links, ∀ a ∈ l.attributes, a.DoubleFree

structure ScopeSpans.DoubleFree (s : ScopeSpans) : Prop where
  scope : ∀ scope ∈ s.scope, ∀ a ∈ scope.attributes, a.DoubleFree
  spans : ∀ span ∈ s.spans, span.DoubleFree

structure ResourceSpans.DoubleFree (r : ResourceSpans) : Prop where
  resource : ∀ resource ∈ r.resource, ∀ a ∈ resource.attributes, a.DoubleFree
  scopes : ∀ s ∈ r.scopes, s.DoubleFree

def Batch.DoubleFree (b : Batch) : Prop := ∀ r ∈ b.resources, r.DoubleFree

/-! Records and texts -/

theorem record_inj {fields fields' : List (String × Json)} :
    Json.record fields = Json.record fields' ↔ fields = fields' := by
  have hentry : Function.Injective fun field : String × Json => (some field.1, field.2) := by
    rintro ⟨key, value⟩ ⟨key', value'⟩ heq
    cases heq
    rfl
  rw [Json.record, Json.record, Json.object.injEq]
  exact List.map_inj_right hentry

theorem text_inj {s s' : String} : Json.text s = Json.text s' ↔ s = s' := by
  rw [Json.text, Json.text, Json.string.injEq, Option.some.injEq]

theorem textOf_inj {cs cs' : List Char} : textOf cs = textOf cs' ↔ cs = cs' := by
  rw [textOf, textOf, text_inj, String.ofList_inj]

theorem timeJson_inj {t t' : UInt64} : timeJson t = timeJson t' ↔ t = t' := by
  rw [timeJson, timeJson, textOf_inj, natText_injective.eq_iff, UInt64.toNat_inj]

theorem idJson_inj {id id' : List UInt8} : textOf (byteHex id) = textOf (byteHex id') ↔ id = id' := by
  rw [textOf_inj, byteHex_injective.eq_iff]

theorem countJson_inj {n n' : UInt32} : countJson n = countJson n' ↔ n = n' := by
  rw [countJson, countJson, Json.ofNat, Json.ofNat, ← UInt32.toNat_inj]
  simp

/-- The sign and the digits tell the number. -/
theorem codeJson_inj {n n' : Int32} : codeJson n = codeJson n' ↔ n = n' := by
  rw [codeJson, codeJson, Json.ofInt, Json.ofInt, ← Int32.toInt_inj, Json.number.injEq, Numeral.mk.injEq,
    decide_eq_decide]
  constructor
  · rintro ⟨hsign, hdigits, -⟩
    omega
  · intro heq
    simp [heq]

/-! Values -/

/-- A value that holds nothing is an object without fields. -/
theorem Value.toJson_ne_null (v : Value) : v.toJson ≠ .null := by
  cases v <;> simp [Value.toJson, Json.record]

mutual

/-- Values without doubles have different documents. -/
theorem Value.toJson_inj (v v' : Value) (hv : v.DoubleFree) (hv' : v'.DoubleFree) (heq : v.toJson = v'.toJson) :
    v = v' := by
  match v with
  | .string text =>
      cases v' with
      | string text' => simpa [Value.toJson, record_inj, text_inj] using heq
      | _ => simp [Value.toJson, record_inj] at heq
  | .int n =>
      cases v' with
      | int n' =>
          have htext : intText n.toInt = intText n'.toInt := by simpa [Value.toJson, record_inj, textOf_inj] using heq
          rw [Int64.toInt_inj.mp (intText_injective htext)]
      | _ => simp [Value.toJson, record_inj] at heq
  | .bool b =>
      cases v' with
      | bool b' => simpa [Value.toJson, record_inj] using heq
      | _ => simp [Value.toJson, record_inj] at heq
  | .bytes data =>
      cases v' with
      | bytes data' =>
          have htext : base64 data = base64 data' := by simpa [Value.toJson, record_inj, textOf_inj] using heq
          rw [base64_injective htext]
      | _ => simp [Value.toJson, record_inj] at heq
  | .array items =>
      cases v' with
      | array items' =>
          have hitems : itemsJson items = itemsJson items' := by simpa [Value.toJson, record_inj] using heq
          rw [itemsJson_inj items items' hv hv' hitems]
      | _ => simp [Value.toJson, record_inj] at heq
  | .table entries =>
      cases v' with
      | table entries' =>
          have hentries : entriesJson entries = entriesJson entries' := by simpa [Value.toJson, record_inj] using heq
          rw [entriesJson_inj entries entries' hv hv' hentries]
      | _ => simp [Value.toJson, record_inj] at heq
  | .empty =>
      cases v' with
      | empty => rfl
      | _ => simp [Value.toJson, record_inj] at heq

theorem itemsJson_inj (items items' : List Value) (hitems : ItemsDoubleFree items) (hitems' : ItemsDoubleFree items')
    (heq : itemsJson items = itemsJson items') : items = items' := by
  match items, items' with
  | [], [] => rfl
  | [], _ :: _ => simp [itemsJson] at heq
  | _ :: _, [] => simp [itemsJson] at heq
  | item :: items, item' :: items' =>
      rw [itemsJson, itemsJson] at heq
      obtain ⟨hitem, hrest⟩ := List.cons.inj heq
      rw [Value.toJson_inj item item' hitems.1 hitems'.1 hitem, itemsJson_inj items items' hitems.2 hitems'.2 hrest]

theorem entriesJson_inj (entries entries' : List (String × Option Value)) (hentries : EntriesDoubleFree entries)
    (hentries' : EntriesDoubleFree entries') (heq : entriesJson entries = entriesJson entries') :
    entries = entries' := by
  match entries, entries' with
  | [], [] => rfl
  | [], (_, none) :: _ => simp [entriesJson] at heq
  | [], (_, some _) :: _ => simp [entriesJson] at heq
  | (_, none) :: _, [] => simp [entriesJson] at heq
  | (_, some _) :: _, [] => simp [entriesJson] at heq
  | (key, none) :: entries, (key', none) :: entries' =>
      rw [entriesJson, entriesJson] at heq
      obtain ⟨hentry, hrest⟩ := List.cons.inj heq
      obtain rfl : key = key' := by simpa [record_inj, text_inj] using hentry
      rw [entriesJson_inj entries entries' hentries hentries' hrest]
  | (_, none) :: _, (_, some value') :: _ =>
      simp [entriesJson, record_inj, value'.toJson_ne_null.symm] at heq
  | (_, some value) :: _, (_, none) :: _ =>
      simp [entriesJson, record_inj, value.toJson_ne_null] at heq
  | (key, some value) :: entries, (key', some value') :: entries' =>
      rw [entriesJson, entriesJson] at heq
      obtain ⟨hentry, hrest⟩ := List.cons.inj heq
      obtain ⟨rfl, hvalue⟩ : key = key' ∧ value.toJson = value'.toJson := by
        simpa [record_inj, text_inj] using hentry
      rw [Value.toJson_inj value value' hentries.1 hentries'.1 hvalue,
        entriesJson_inj entries entries' hentries.2 hentries'.2 hrest]

end

/-! Lists and messages that may be missing -/

section Parts

variable {α : Type} {toJson : α → Json}

/-- Lists whose items have different documents have different lists of documents. -/
theorem map_toJson_inj {as bs : List α} (hinj : ∀ a ∈ as, ∀ b ∈ bs, toJson a = toJson b → a = b)
    (heq : as.map toJson = bs.map toJson) : as = bs := by
  induction as generalizing bs with
  | nil => exact (List.map_eq_nil_iff.mp heq.symm).symm
  | cons a as ih =>
      obtain ⟨b, bs, rfl, hb, hbs⟩ := List.map_eq_cons_iff.mp heq.symm
      rw [hinj a List.mem_cons_self b List.mem_cons_self hb.symm,
        ih (fun x hx y hy => hinj x (List.mem_cons_of_mem a hx) y (List.mem_cons_of_mem b hy)) hbs.symm]

/-- A message that is there is not written as one that is missing. -/
theorem optional_inj {a? b? : Option α} (heq : Json.optional toJson a? = Json.optional toJson b?)
    (hnull : ∀ a, toJson a ≠ .null) (hinj : ∀ a ∈ a?, ∀ b ∈ b?, toJson a = toJson b → a = b) : a? = b? := by
  cases a? with
  | none =>
      cases b? with
      | none => rfl
      | some b => exact absurd heq.symm (hnull b)
  | some a =>
      cases b? with
      | none => exact absurd heq (hnull a)
      | some b => rw [hinj a rfl b rfl heq]

end Parts

/-! Messages -/

theorem Attribute.toJson_inj {a a' : Attribute} (ha : a.DoubleFree) (ha' : a'.DoubleFree)
    (heq : a.toJson = a'.toJson) : a = a' := by
  obtain ⟨key, value⟩ := a
  obtain ⟨key', value'⟩ := a'
  obtain ⟨rfl, hvalue⟩ : key = key' ∧ Json.optional Value.toJson value = Json.optional Value.toJson value' := by
    simpa [Attribute.toJson, record_inj, text_inj] using heq
  obtain rfl : value = value' :=
    optional_inj hvalue Value.toJson_ne_null fun v hv v' hv' => Value.toJson_inj v v' (ha v hv) (ha' v' hv')
  rfl

theorem attributesJson_inj {as as' : List Attribute} (has : ∀ a ∈ as, a.DoubleFree) (has' : ∀ a ∈ as', a.DoubleFree)
    (heq : attributesJson as = attributesJson as') : as = as' :=
  map_toJson_inj (fun a ha a' ha' => Attribute.toJson_inj (has a ha) (has' a' ha')) (Json.array.inj heq)

theorem Event.toJson_inj {e e' : Event} (he : ∀ a ∈ e.attributes, a.DoubleFree)
    (he' : ∀ a ∈ e'.attributes, a.DoubleFree) (heq : e.toJson = e'.toJson) : e = e' := by
  cases e
  cases e'
  simp only [Event.toJson, record_inj, List.cons.injEq, Prod.mk.injEq, text_inj, timeJson_inj, countJson_inj] at heq
  obtain ⟨⟨-, rfl⟩, ⟨-, rfl⟩, ⟨-, hattributes⟩, ⟨-, rfl⟩, -⟩ := heq
  cases attributesJson_inj he he' hattributes
  rfl

theorem Link.toJson_inj {l l' : Link} (hl : ∀ a ∈ l.attributes, a.DoubleFree)
    (hl' : ∀ a ∈ l'.attributes, a.DoubleFree) (heq : l.toJson = l'.toJson) : l = l' := by
  cases l
  cases l'
  simp only [Link.toJson, record_inj, List.cons.injEq, Prod.mk.injEq, text_inj, idJson_inj, countJson_inj] at heq
  obtain ⟨⟨-, rfl⟩, ⟨-, rfl⟩, ⟨-, rfl⟩, ⟨-, hattributes⟩, ⟨-, rfl⟩, ⟨-, rfl⟩, -⟩ := heq
  cases attributesJson_inj hl hl' hattributes
  rfl

theorem Status.toJson_inj {s s' : Status} (heq : s.toJson = s'.toJson) : s = s' := by
  cases s
  cases s'
  simp only [Status.toJson, record_inj, List.cons.injEq, Prod.mk.injEq, text_inj, codeJson_inj] at heq
  obtain ⟨⟨-, rfl⟩, ⟨-, rfl⟩, -⟩ := heq
  rfl

theorem Span.toJson_inj {s s' : Span} (hs : s.DoubleFree) (hs' : s'.DoubleFree) (heq : s.toJson = s'.toJson) :
    s = s' := by
  obtain ⟨hattributes, hevents, hlinks⟩ := hs
  obtain ⟨hattributes', hevents', hlinks'⟩ := hs'
  cases s
  cases s'
  simp only [Span.toJson, record_inj, List.cons.injEq, Prod.mk.injEq, Json.array.injEq, text_inj, idJson_inj,
    timeJson_inj, countJson_inj, codeJson_inj] at heq
  obtain ⟨⟨-, rfl⟩, ⟨-, rfl⟩, ⟨-, rfl⟩, ⟨-, rfl⟩, ⟨-, rfl⟩, ⟨-, rfl⟩, ⟨-, rfl⟩, ⟨-, rfl⟩, ⟨-, rfl⟩,
    ⟨-, hattribute⟩, ⟨-, rfl⟩, ⟨-, hevent⟩, ⟨-, rfl⟩, ⟨-, hlink⟩, ⟨-, rfl⟩, ⟨-, hstatus⟩, -⟩ := heq
  cases attributesJson_inj hattributes hattributes' hattribute
  cases map_toJson_inj (fun e he e' he' => Event.toJson_inj (hevents e he) (hevents' e' he')) hevent
  cases map_toJson_inj (fun l hl l' hl' => Link.toJson_inj (hlinks l hl) (hlinks' l' hl')) hlink
  cases optional_inj hstatus (fun _ => nofun) (fun _ _ _ _ => Status.toJson_inj)
  rfl

theorem Scope.toJson_inj {s s' : Scope} (hs : ∀ a ∈ s.attributes, a.DoubleFree)
    (hs' : ∀ a ∈ s'.attributes, a.DoubleFree) (heq : s.toJson = s'.toJson) : s = s' := by
  cases s
  cases s'
  simp only [Scope.toJson, record_inj, List.cons.injEq, Prod.mk.injEq, text_inj, countJson_inj] at heq
  obtain ⟨⟨-, rfl⟩, ⟨-, rfl⟩, ⟨-, hattributes⟩, ⟨-, rfl⟩, -⟩ := heq
  cases attributesJson_inj hs hs' hattributes
  rfl

theorem ScopeSpans.toJson_inj {s s' : ScopeSpans} (hs : s.DoubleFree) (hs' : s'.DoubleFree)
    (heq : s.toJson = s'.toJson) : s = s' := by
  obtain ⟨hscope, hspans⟩ := hs
  obtain ⟨hscope', hspans'⟩ := hs'
  cases s
  cases s'
  simp only [ScopeSpans.toJson, record_inj, List.cons.injEq, Prod.mk.injEq, Json.array.injEq, text_inj] at heq
  obtain ⟨⟨-, hmessage⟩, ⟨-, hspan⟩, ⟨-, rfl⟩, -⟩ := heq
  cases optional_inj hmessage (fun _ => nofun)
    (fun s hs s' hs' => Scope.toJson_inj (hscope s hs) (hscope' s' hs'))
  cases map_toJson_inj (fun s hs s' hs' => Span.toJson_inj (hspans s hs) (hspans' s' hs')) hspan
  rfl

theorem EntityRef.toJson_inj {e e' : EntityRef} (heq : e.toJson = e'.toJson) : e = e' := by
  cases e
  cases e'
  simp only [EntityRef.toJson, record_inj, List.cons.injEq, Prod.mk.injEq, Json.array.injEq, text_inj] at heq
  obtain ⟨⟨-, rfl⟩, ⟨-, rfl⟩, ⟨-, hids⟩, ⟨-, hdescriptions⟩, -⟩ := heq
  cases map_toJson_inj (fun _ _ _ _ => text_inj.mp) hids
  cases map_toJson_inj (fun _ _ _ _ => text_inj.mp) hdescriptions
  rfl

theorem Resource.toJson_inj {r r' : Resource} (hr : ∀ a ∈ r.attributes, a.DoubleFree)
    (hr' : ∀ a ∈ r'.attributes, a.DoubleFree) (heq : r.toJson = r'.toJson) : r = r' := by
  cases r
  cases r'
  simp only [Resource.toJson, record_inj, List.cons.injEq, Prod.mk.injEq, Json.array.injEq, countJson_inj] at heq
  obtain ⟨⟨-, hattributes⟩, ⟨-, rfl⟩, ⟨-, hentities⟩, -⟩ := heq
  cases attributesJson_inj hr hr' hattributes
  cases map_toJson_inj (fun _ _ _ _ => EntityRef.toJson_inj) hentities
  rfl

theorem ResourceSpans.toJson_inj {r r' : ResourceSpans} (hr : r.DoubleFree) (hr' : r'.DoubleFree)
    (heq : r.toJson = r'.toJson) : r = r' := by
  obtain ⟨hresource, hscopes⟩ := hr
  obtain ⟨hresource', hscopes'⟩ := hr'
  cases r
  cases r'
  simp only [ResourceSpans.toJson, record_inj, List.cons.injEq, Prod.mk.injEq, Json.array.injEq, text_inj] at heq
  obtain ⟨⟨-, hmessage⟩, ⟨-, hscope⟩, ⟨-, rfl⟩, -⟩ := heq
  cases optional_inj hmessage (fun _ => nofun)
    (fun r hr r' hr' => Resource.toJson_inj (hresource r hr) (hresource' r' hr'))
  cases map_toJson_inj (fun s hs s' hs' => ScopeSpans.toJson_inj (hscopes s hs) (hscopes' s' hs')) hscope
  rfl

/-- Batches without doubles have different documents. -/
theorem Batch.toJson_inj {b b' : Batch} (h : b.DoubleFree) (h' : b'.DoubleFree) (heq : b.toJson = b'.toJson) :
    b = b' := by
  obtain ⟨resources⟩ := b
  obtain ⟨resources'⟩ := b'
  have hresources : resources.map ResourceSpans.toJson = resources'.map ResourceSpans.toJson := by
    simpa [Batch.toJson, record_inj] using heq
  obtain rfl : resources = resources' :=
    map_toJson_inj (fun r hr r' hr' => ResourceSpans.toJson_inj (h r hr) (h' r' hr')) hresources
  rfl

/-! Texts of batches -/

open Json (Exact)

mutual

theorem Value.exact_toJson (v : Value) : Exact v.toJson := by
  have hfield {key : String} {value : Json} (hvalue : Exact value) : Exact (.record [(key, value)]) :=
    .record (List.forall_mem_singleton.mpr hvalue)
  match v with
  | .string text => exact hfield (.text text)
  | .int n => exact hfield (.text _)
  | .double bits => exact hfield (.ofDouble _)
  | .bool b => exact hfield trivial
  | .bytes data => exact hfield (.text _)
  | .array items => exact hfield (hfield (.array (exact_itemsJson items)))
  | .table entries => exact hfield (hfield (.array (exact_entriesJson entries)))
  | .empty => exact .record (List.forall_mem_nil _)

theorem exact_itemsJson (items : List Value) : ∀ item ∈ itemsJson items, Exact item := by
  match items with
  | [] => exact List.forall_mem_nil _
  | item :: items => exact List.forall_mem_cons.mpr ⟨item.exact_toJson, exact_itemsJson items⟩

theorem exact_entriesJson (entries : List (String × Option Value)) : ∀ entry ∈ entriesJson entries, Exact entry := by
  have hentry {key : String} {value : Json} (hvalue : Exact value) :
      Exact (.record [("key", .text key), ("value", value)]) :=
    .record (List.forall_mem_cons.mpr ⟨.text key, List.forall_mem_singleton.mpr hvalue⟩)
  match entries with
  | [] => exact List.forall_mem_nil _
  | (key, none) :: entries => exact List.forall_mem_cons.mpr ⟨hentry trivial, exact_entriesJson entries⟩
  | (key, some value) :: entries =>
      exact List.forall_mem_cons.mpr ⟨hentry value.exact_toJson, exact_entriesJson entries⟩

end

theorem exact_map {α : Type} {toJson : α → Json} (htoJson : ∀ a, Exact (toJson a)) (as : List α) :
    Exact (.array (as.map toJson)) :=
  .array (List.forall_mem_map.mpr fun a _ => htoJson a)

theorem exact_attributesJson (as : List Attribute) : Exact (attributesJson as) := by
  refine exact_map (fun a => .record ?_) as
  simp [List.forall_mem_cons, Exact.text, Exact.optional, Value.exact_toJson, -List.mem_cons]

theorem exact_countJson (n : UInt32) : Exact (countJson n) := .ofNat _

theorem exact_codeJson (n : Int32) : Exact (codeJson n) := .ofInt _

theorem Event.exact_toJson (e : Event) : Exact e.toJson := by
  refine .record ?_
  simp [List.forall_mem_cons, timeJson, textOf, Exact.text, exact_countJson, exact_attributesJson, -List.mem_cons]

theorem Link.exact_toJson (l : Link) : Exact l.toJson := by
  refine .record ?_
  simp [List.forall_mem_cons, textOf, Exact.text, exact_countJson, exact_attributesJson, -List.mem_cons]

theorem Status.exact_toJson (s : Status) : Exact s.toJson := by
  refine .record ?_
  simp [List.forall_mem_cons, Exact.text, exact_codeJson, -List.mem_cons]

theorem Span.exact_toJson (s : Span) : Exact s.toJson := by
  refine .record ?_
  simp [List.forall_mem_cons, timeJson, textOf, Exact.text, exact_countJson, exact_codeJson, exact_attributesJson,
    exact_map Event.exact_toJson, exact_map Link.exact_toJson, Exact.optional Status.exact_toJson, -List.mem_cons]

theorem ScopeSpans.exact_toJson (s : ScopeSpans) : Exact s.toJson := by
  have hscope (scope : Scope) : Exact scope.toJson := by
    refine .record ?_
    simp [List.forall_mem_cons, Exact.text, exact_countJson, exact_attributesJson, -List.mem_cons]
  refine .record ?_
  simp [List.forall_mem_cons, Exact.text, Exact.optional hscope, exact_map Span.exact_toJson, -List.mem_cons]

theorem EntityRef.exact_toJson (e : EntityRef) : Exact e.toJson := by
  refine .record ?_
  simp [List.forall_mem_cons, Exact.text, exact_map Exact.text, -List.mem_cons]

theorem ResourceSpans.exact_toJson (r : ResourceSpans) : Exact r.toJson := by
  have hresource (resource : Resource) : Exact resource.toJson := by
    refine .record ?_
    simp [List.forall_mem_cons, exact_countJson, exact_attributesJson, exact_map EntityRef.exact_toJson,
      -List.mem_cons]
  refine .record ?_
  simp [List.forall_mem_cons, Exact.text, Exact.optional hresource, exact_map ScopeSpans.exact_toJson,
    -List.mem_cons]

theorem Batch.exact_toJson (b : Batch) : Exact b.toJson :=
  .record (List.forall_mem_singleton.mpr (exact_map ResourceSpans.exact_toJson b.resources))

/-- The text of a batch is its document. -/
theorem Batch.isDocument_dump (b : Batch) : Json.IsDocument b.dump.toList b.toJson :=
  Json.isDocument_pretty b.exact_toJson

/-- Batches without doubles have different texts. -/
theorem Batch.dump_inj {b b' : Batch} (h : b.DoubleFree) (h' : b'.DoubleFree) (heq : b.dump = b'.dump) : b = b' := by
  have hdocument := b'.isDocument_dump
  rw [← heq] at hdocument
  exact b.toJson_inj h h' (b.isDocument_dump.unique hdocument)

end ContentProbe.Wire
