import ContentProbe.Proofs.Json.Doubles
import ContentProbe.Proofs.Time.Stamp
import ContentProbe.Record.Codec

/-!
A record survives its JSON text, whatever its texts hold, but for its lengths of time, which are only ever
read as some double. A field is found under its key since no key occurs twice, and what stands under it is a
value of its kind or `null`.
-/

namespace ContentProbe

open ContentProbe.Time

namespace Fields

/-- The fields of an object, as they are read. -/
def held (fields : List (String × Json)) : List (Option String × Json) := fields.map fun (k, v) => (some k, v)

variable {fields : List (String × Json)} {key : String} {α : Type}

theorem filter_held (hkeys : (fields.map Prod.fst).Nodup) {v : Json} (hmem : (key, v) ∈ fields) :
    (held fields).filter (·.1 == some key) = [(some key, v)] := by
  induction fields with
  | nil => exact nomatch hmem
  | cons field rest ih =>
      obtain ⟨k, w⟩ := field
      obtain ⟨hfirst, hrest⟩ := List.nodup_cons.mp hkeys
      rw [held, List.map_cons, List.filter_cons]
      by_cases hk : k = key
      · subst k
        have hv : w = v := by
          rcases List.mem_cons.mp hmem with heq | hmem
          · exact (Prod.mk.inj heq).2.symm
          · exact absurd (List.mem_map_of_mem hmem) hfirst
        have hnone : (held rest).filter (·.1 == some key) = [] := by
          rw [List.filter_eq_nil_iff]
          intro entry hentry heq
          obtain ⟨⟨l, u⟩, hl, rfl⟩ := List.mem_map.mp hentry
          have hkey : l = key := by simpa using heq
          exact hfirst (List.mem_map.mpr ⟨(l, u), hl, hkey⟩)
        rw [if_pos (by simp), hv]
        exact congrArg _ hnone
      · rw [if_neg (by simpa using hk)]
        refine ih hrest ((List.mem_cons.mp hmem).resolve_left fun heq => hk (Prod.mk.inj heq).1.symm)

theorem value?_held (hkeys : (fields.map Prod.fst).Nodup) {v : Json} (hmem : (key, v) ∈ fields) :
    value? (held fields) key = some (some v) := by
  rw [value?, filter_held hkeys hmem]

theorem required_held (hkeys : (fields.map Prod.fst).Nodup) {v : Json} {a : α} {read : Json → Option α}
    (hmem : (key, v) ∈ fields) (hread : read v = some a) : required read (held fields) key = some a := by
  rw [required, value?_held hkeys hmem]
  exact hread

theorem optional_null (hkeys : (fields.map Prod.fst).Nodup) {read : Json → Option α}
    (hmem : (key, .null) ∈ fields) : optional read (held fields) key = some none := by
  rw [optional, value?_held hkeys hmem]
  rfl

theorem optional_value (hkeys : (fields.map Prod.fst).Nodup) {v : Json} {a : α} {read : Json → Option α}
    (hmem : (key, v) ∈ fields) (hv : v ≠ .null) (hread : read v = some a) :
    optional read (held fields) key = some (some a) := by
  rw [optional, value?_held hkeys hmem]
  cases v with
  | null => contradiction
  | _ => exact congrArg (·.bind fun b => some (some b)) hread

/-- A value that is missing is written as `null` and read as missing. -/
theorem optional_held (hkeys : (fields.map Prod.fst).Nodup) {f : α → Json} {o : Option α}
    {read : Json → Option α} (hmem : (key, Json.optional f o) ∈ fields)
    (hread : ∀ a ∈ o, f a ≠ .null ∧ read (f a) = some a) :
    optional read (held fields) key = some o := by
  cases o with
  | none => exact optional_null hkeys hmem
  | some a => exact optional_value hkeys hmem (hread a rfl).1 (hread a rfl).2

/-- A length of time is read, as whatever double. -/
theorem optional_seconds (hkeys : (fields.map Prod.fst).Nodup) {o : Option Float}
    (hmem : (key, Json.optional .ofDouble o) ∈ fields) :
    ∃ o', optional double? (held fields) key = some o' := by
  cases o with
  | none => exact ⟨none, optional_null hkeys hmem⟩
  | some x =>
      change (key, Json.ofDouble x) ∈ fields at hmem
      rcases Json.ofDouble_cases x with hx | ⟨n, hx, -, hread⟩
      · rw [hx] at hmem
        exact ⟨none, optional_null hkeys hmem⟩
      · obtain ⟨y, hy⟩ := Option.isSome_iff_exists.mp hread
        rw [hx] at hmem
        exact ⟨some y, optional_value hkeys hmem Json.noConfusion hy⟩

theorem canHold_text (depth : Nat) (s : String) : canHold depth (.text s) = true := by
  cases depth <;> rfl

/-- Fields that are not read where they stand are texts, which can be held. -/
theorem ofObject?_record {known : List String}
    (hfields : ∀ f ∈ fields, f.1 ∈ known ∨ ∃ s, f.2 = .text s) :
    ofObject? known (.record fields) = some (held fields) := by
  refine if_pos (List.all_eq_true.mpr fun entry hentry => ?_)
  obtain ⟨f, hf, rfl⟩ := List.mem_map.mp hentry
  rcases hfields f hf with hknown | ⟨s, htext⟩
  · simp [hknown]
  · simp [htext, canHold_text]

/-- A record is read from its text as the fields that were written. -/
theorem read?_record (hexact : ∀ f ∈ fields, Json.Exact f.2) :
    Json.read? (Json.record fields).compactText.toList = some (.record fields) := by
  rw [Json.compactText, String.toList_ofList, Json.read?_compact (.record hexact)]

theorem newline_not_mem_record (hexact : ∀ f ∈ fields, Json.Exact f.2) :
    '\n' ∉ (Json.record fields).compactText.toList := by
  rw [Json.compactText, String.toList_ofList]
  exact Json.newline_not_mem_compact _ (.record hexact)

/-! Values -/

theorem exact_stampJson (t : Stamp) : Json.Exact (stampJson t) := .text _

theorem nat?_ofNat {n : Nat} (hn : n < 2 ^ 64) : nat? (.ofNat n) = some n :=
  if_pos ⟨rfl, Bool.false_ne_true, hn⟩

theorem int64?_ofInt (n : Int64) : int64? (.ofInt n.toInt) = some n := by
  have hlow := n.le_toInt
  have hhigh := n.toInt_lt
  have hwhole : (⟨n.toInt < 0, n.toInt.natAbs, [], none⟩ : Numeral).isWhole = true := rfl
  rw [Json.ofInt, int64?, Numeral.toInt64?, hwhole]
  simp only [Bool.not_true, Bool.false_eq_true, if_false, decide_eq_true_eq, Nat.pow_eq]
  split
  · have hback : -(n.toInt.natAbs : Int) = n.toInt := by omega
    rw [if_pos (by omega), hback, Int64.ofInt_toInt]
  · have hback : (n.toInt.natAbs : Int) = n.toInt := by omega
    rw [if_pos (by omega), hback, Int64.ofInt_toInt]

theorem stamp?_stampJson {t : Stamp} (ht : t.Reached) : stamp? (stampJson t) = some t := by
  change (some (String.ofList t.render)).bind (fun s => Stamp.read? s.toList) = _
  rw [Option.bind_some, String.toList_ofList, ht.read?_render]

theorem required_text (hkeys : (fields.map Prod.fst).Nodup) {s : String} (hmem : (key, .text s) ∈ fields) :
    required text? (held fields) key = some s :=
  required_held hkeys hmem rfl

theorem optional_text (hkeys : (fields.map Prod.fst).Nodup) {o : Option String}
    (hmem : (key, Json.optional .text o) ∈ fields) : optional text? (held fields) key = some o :=
  optional_held hkeys hmem fun _ _ => ⟨Json.noConfusion, rfl⟩

theorem optional_stamp (hkeys : (fields.map Prod.fst).Nodup) {o : Option Stamp} (ho : ∀ t ∈ o, t.Reached)
    (hmem : (key, Json.optional stampJson o) ∈ fields) : optional stamp? (held fields) key = some o :=
  optional_held hkeys hmem fun t ht => ⟨Json.noConfusion, stamp?_stampJson (ho t ht)⟩

end Fields

theorem Discovery.ofJson?_name (d : Discovery) : ofJson? (.text d.name) = some d := by
  cases d <;> simp [Json.text, ofJson?, ofName?, name, List.find?]

theorem RunInfo.ofFields?_held {fields : List (String × Json)} (hkeys : (fields.map Prod.fst).Nodup)
    {r : RunInfo} (hsub : r.fields ⊆ fields) : ofFields? (Fields.held fields) = some r := by
  have htext {key s : String} (hmem : (key, Json.text s) ∈ r.fields) :
      Fields.required Fields.text? (Fields.held fields) key = some s :=
    Fields.required_text hkeys (hsub hmem)
  have hrunId : Fields.required Fields.text? (Fields.held fields) "run_id" = some r.runId :=
    htext (by simp [RunInfo.fields])
  have hregion : Fields.required Fields.text? (Fields.held fields) "region" = some r.region :=
    htext (by simp [RunInfo.fields])
  have hprobe : Fields.required Fields.text? (Fields.held fields) "tiros_version" = some r.probeVersion :=
    htext (by simp [RunInfo.fields])
  have hnode : Fields.required Fields.text? (Fields.held fields) "node_version" = some r.nodeVersion :=
    htext (by simp [RunInfo.fields])
  have hpeer : Fields.required Fields.text? (Fields.held fields) "node_peer_id" = some r.nodePeerId :=
    htext (by simp [RunInfo.fields])
  simp only [ofFields?, Option.bind_eq_bind, Option.bind_some, hrunId, hregion, hprobe, hnode, hpeer]
  rfl

theorem RunInfo.exists_text (r : RunInfo) : ∀ f ∈ r.fields, ∃ s, f.2 = .text s := by
  simp [RunInfo.fields]

/-- A record whose own keys are the known ones is readable. -/
theorem RunInfo.ofObject?_fields (r : RunInfo) {own : List (String × Json)} {known : List String}
    (hknown : own.map Prod.fst = known) :
    Fields.ofObject? known (.record (r.fields ++ own)) = some (Fields.held (r.fields ++ own)) := by
  refine Fields.ofObject?_record fun f hf => ?_
  rcases List.mem_append.mp hf with hf | hf
  · exact Or.inr (r.exists_text f hf)
  · exact Or.inl (hknown ▸ List.mem_map_of_mem hf)

theorem RunInfo.exact_fields (r : RunInfo) : ∀ f ∈ r.fields, Json.Exact f.2 := by
  intro f hf
  obtain ⟨s, htext⟩ := r.exists_text f hf
  rw [htext]
  exact .text s

namespace UploadRecord

/-- What a record can hold: counts and times of 64 bits. -/
structure Writable (r : UploadRecord) : Prop where
  fileSize : r.fileSize < 2 ^ 64
  addStart : ∀ t ∈ r.addStart, t.Reached
  provideStart : ∀ t ∈ r.provideStart, t.Reached

/-- A record without its lengths of time. -/
def untimed (r : UploadRecord) : UploadRecord :=
  { r with addSeconds := none, provideSeconds := none, provideDelay := none, uploadSeconds := none }

/-- No key occurs twice, of a run or of a probe. -/
theorem keys_nodup (r : UploadRecord) : ((r.run.fields ++ r.ownFields).map Prod.fst).Nodup := by
  have hkeys : (["run_id", "region", "tiros_version", "node_version", "node_peer_id"] ++ known).Nodup := by
    decide
  exact hkeys

theorem ofFields?_held {r : UploadRecord} (hr : r.Writable) :
    ∃ r', ofFields? (Fields.held (r.run.fields ++ r.ownFields)) = some r' ∧ r'.untimed = r.untimed := by
  have hkeys := r.keys_nodup
  have hown {f : String × Json} (hf : f ∈ r.ownFields) : f ∈ r.run.fields ++ r.ownFields :=
    List.mem_append_right _ hf
  have hrun := RunInfo.ofFields?_held hkeys (List.subset_append_left r.run.fields r.ownFields)
  have hsize : Fields.required Fields.nat? _ "file_size_b" = some r.fileSize :=
    Fields.required_held hkeys (hown (by simp [ownFields])) (Fields.nat?_ofNat hr.fileSize)
  have haddTrace : Fields.required Fields.text? _ "add_trace_id" = some r.addTrace :=
    Fields.required_text hkeys (hown (by simp [ownFields]))
  have hcid : Fields.optional Fields.text? _ "cid" = some r.cid :=
    Fields.optional_text hkeys (hown (by simp [ownFields]))
  have hrawCid : Fields.optional Fields.text? _ "raw_cid" = some r.rawCid :=
    Fields.optional_text hkeys (hown (by simp [ownFields]))
  have hprovideTrace : Fields.optional Fields.text? _ "provide_trace_id" = some r.provideTrace :=
    Fields.optional_text hkeys (hown (by simp [ownFields]))
  have herror : Fields.optional Fields.text? _ "error" = some r.error :=
    Fields.optional_text hkeys (hown (by simp [ownFields]))
  have haddStart : Fields.optional Fields.stamp? _ "add_start" = some r.addStart :=
    Fields.optional_stamp hkeys hr.addStart (hown (by simp [ownFields]))
  have hprovideStart : Fields.optional Fields.stamp? _ "provide_start" = some r.provideStart :=
    Fields.optional_stamp hkeys hr.provideStart (hown (by simp [ownFields]))
  have hseconds (key : String) (o : Option Float) (hmem : (key, Json.optional .ofDouble o) ∈ r.ownFields) :=
    Fields.optional_seconds hkeys (hown hmem)
  obtain ⟨add, hadd⟩ := hseconds "add_duration_s" r.addSeconds (by simp [ownFields])
  obtain ⟨provide, hprovide⟩ := hseconds "provide_duration_s" r.provideSeconds (by simp [ownFields])
  obtain ⟨delay, hdelay⟩ := hseconds "provide_delay_s" r.provideDelay (by simp [ownFields])
  obtain ⟨upload, hupload⟩ := hseconds "upload_duration_s" r.uploadSeconds (by simp [ownFields])
  refine ⟨{ r with addSeconds := add, provideSeconds := provide, provideDelay := delay,
                   uploadSeconds := upload }, ?_, rfl⟩
  unfold ofFields?
  dsimp only
  rw [hrun, hsize, hcid, hrawCid, haddTrace, haddStart, hadd, hprovideTrace, hprovideStart, hprovide, hdelay,
    hupload, herror]
  rfl

theorem exact_ownFields (r : UploadRecord) : ∀ f ∈ r.ownFields, Json.Exact f.2 := by
  simp [ownFields, List.forall_mem_cons, Json.Exact.text, Json.Exact.ofNat, Json.Exact.optional,
    Fields.exact_stampJson, Json.Exact.ofDouble, -List.mem_cons]

theorem exact_fields (r : UploadRecord) : ∀ f ∈ r.run.fields ++ r.ownFields, Json.Exact f.2 :=
  List.forall_mem_append.mpr ⟨r.run.exact_fields, r.exact_ownFields⟩

theorem newline_not_mem_encode (r : UploadRecord) : '\n' ∉ r.encode.toList :=
  Fields.newline_not_mem_record r.exact_fields

/-- A record is read back from its text, but for its lengths of time. -/
theorem decode?_encode {r : UploadRecord} (hr : r.Writable) :
    ∃ r', decode? r.encode = some r' ∧ r'.untimed = r.untimed := by
  have hread : decode? r.encode = ofFields? (Fields.held (r.run.fields ++ r.ownFields)) := by
    have hknown : r.ownFields.map Prod.fst = known := rfl
    rw [decode?, encode, toJson, Fields.read?_record r.exact_fields, Option.bind_some, ofJson?,
      r.run.ofObject?_fields hknown, Option.bind_some]
  rw [hread]
  exact ofFields?_held hr

end UploadRecord

namespace DownloadRecord

/-- What a record can hold: counts and times of 64 bits. -/
structure Writable (r : DownloadRecord) : Prop where
  fileSize : ∀ n ∈ r.fileSize, n < 2 ^ 64
  found : r.found < 2 ^ 64
  connected : r.connected < 2 ^ 64
  catStart : r.catStart.Reached
  idleBroadcast : ∀ t ∈ r.idleBroadcast, t.Reached
  firstFoundAt : ∀ t ∈ r.firstFoundAt, t.Reached
  firstConnectedAt : ∀ t ∈ r.firstConnectedAt, t.Reached
  indexStart : ∀ t ∈ r.indexStart, t.Reached
  firstBlock : ∀ t ∈ r.firstBlock, t.Reached

/-- A record without its lengths of time. -/
def untimed (r : DownloadRecord) : DownloadRecord :=
  { r with firstByteSeconds := none, catSeconds := none, indexSeconds := none }

theorem keys_nodup (r : DownloadRecord) : ((r.run.fields ++ r.ownFields).map Prod.fst).Nodup := by
  have hkeys : (["run_id", "region", "tiros_version", "node_version", "node_peer_id"] ++ known).Nodup := by
    decide
  exact hkeys

theorem ofFields?_held {r : DownloadRecord} (hr : r.Writable) :
    ∃ r', ofFields? (Fields.held (r.run.fields ++ r.ownFields)) = some r' ∧ r'.untimed = r.untimed := by
  have hkeys := r.keys_nodup
  have hown {f : String × Json} (hf : f ∈ r.ownFields) : f ∈ r.run.fields ++ r.ownFields :=
    List.mem_append_right _ hf
  have hrun := RunInfo.ofFields?_held hkeys (List.subset_append_left r.run.fields r.ownFields)
  have hcid : Fields.required Fields.text? _ "cid" = some r.cid :=
    Fields.required_text hkeys (hown (by simp [ownFields]))
  have hsource : Fields.required Fields.text? _ "cid_source" = some r.cidSource :=
    Fields.required_text hkeys (hown (by simp [ownFields]))
  have htrace : Fields.required Fields.text? _ "cat_trace_id" = some r.catTrace :=
    Fields.required_text hkeys (hown (by simp [ownFields]))
  have hsize : Fields.optional Fields.nat? _ "file_size_b" = some r.fileSize :=
    Fields.optional_held hkeys (hown (by simp [ownFields]))
      fun n hn => ⟨Json.noConfusion, Fields.nat?_ofNat (hr.fileSize n hn)⟩
  have hstart : Fields.required Fields.stamp? _ "cat_start" = some r.catStart :=
    Fields.required_held hkeys (hown (by simp [ownFields])) (Fields.stamp?_stampJson hr.catStart)
  have hidle : Fields.optional Fields.stamp? _ "idle_broadcast_start" = some r.idleBroadcast :=
    Fields.optional_stamp hkeys hr.idleBroadcast (hown (by simp [ownFields]))
  have hfound : Fields.required Fields.nat? _ "found_prov_count" = some r.found :=
    Fields.required_held hkeys (hown (by simp [ownFields])) (Fields.nat?_ofNat hr.found)
  have hconnected : Fields.required Fields.nat? _ "conn_prov_count" = some r.connected :=
    Fields.required_held hkeys (hown (by simp [ownFields])) (Fields.nat?_ofNat hr.connected)
  have hfoundAt : Fields.optional Fields.stamp? _ "first_conn_prov_found_at" = some r.firstFoundAt :=
    Fields.optional_stamp hkeys hr.firstFoundAt (hown (by simp [ownFields]))
  have hconnectedAt : Fields.optional Fields.stamp? _ "first_prov_conn_at" = some r.firstConnectedAt :=
    Fields.optional_stamp hkeys hr.firstConnectedAt (hown (by simp [ownFields]))
  have hpeer : Fields.optional Fields.text? _ "first_prov_peer_id" = some r.firstPeer :=
    Fields.optional_text hkeys (hown (by simp [ownFields]))
  have hindexStart : Fields.optional Fields.stamp? _ "ipni_start" = some r.indexStart :=
    Fields.optional_stamp hkeys hr.indexStart (hown (by simp [ownFields]))
  have hstatus : Fields.optional Fields.int64? _ "ipni_status" = some r.indexStatus :=
    Fields.optional_held hkeys (hown (by simp [ownFields]))
      fun n _ => ⟨Json.noConfusion, Fields.int64?_ofInt n⟩
  have hblock : Fields.optional Fields.stamp? _ "first_block_rec_at" = some r.firstBlock :=
    Fields.optional_stamp hkeys hr.firstBlock (hown (by simp [ownFields]))
  have hdiscovery : Fields.optional Discovery.ofJson? _ "discovery_method" = some r.discovery :=
    Fields.optional_held hkeys (hown (by simp [ownFields]))
      fun d _ => ⟨Json.noConfusion, Discovery.ofJson?_name d⟩
  have hdone : Fields.required Fields.bool? _ "done" = some r.done :=
    Fields.required_held hkeys (hown (by simp [ownFields] : ("done", .bool r.done) ∈ r.ownFields)) rfl
  have herror : Fields.optional Fields.text? _ "error" = some r.error :=
    Fields.optional_text hkeys (hown (by simp [ownFields]))
  have hseconds (key : String) (o : Option Float) (hmem : (key, Json.optional .ofDouble o) ∈ r.ownFields) :=
    Fields.optional_seconds hkeys (hown hmem)
  obtain ⟨firstByte, hfirstByte⟩ := hseconds "cat_ttfb_s" r.firstByteSeconds (by simp [ownFields])
  obtain ⟨cat, hcat⟩ := hseconds "cat_duration_s" r.catSeconds (by simp [ownFields])
  obtain ⟨index, hindex⟩ := hseconds "ipni_duration_s" r.indexSeconds (by simp [ownFields])
  refine ⟨{ r with firstByteSeconds := firstByte, catSeconds := cat, indexSeconds := index }, ?_, rfl⟩
  unfold ofFields?
  dsimp only
  rw [hrun, hcid, hsource, htrace, hsize, hstart, hfirstByte, hcat, hidle, hfound, hconnected, hfoundAt,
    hconnectedAt, hpeer, hindexStart, hindex, hstatus, hblock, hdiscovery, hdone, herror]
  rfl

theorem exact_ownFields (r : DownloadRecord) : ∀ f ∈ r.ownFields, Json.Exact f.2 := by
  simp [ownFields, List.forall_mem_cons, Json.Exact, Json.Exact.text, Json.Exact.ofNat, Json.Exact.optional,
    Fields.exact_stampJson, Json.Exact.ofDouble, Json.Exact.ofInt, -List.mem_cons]

theorem exact_fields (r : DownloadRecord) : ∀ f ∈ r.run.fields ++ r.ownFields, Json.Exact f.2 :=
  List.forall_mem_append.mpr ⟨r.run.exact_fields, r.exact_ownFields⟩

theorem newline_not_mem_encode (r : DownloadRecord) : '\n' ∉ r.encode.toList :=
  Fields.newline_not_mem_record r.exact_fields

/-- A record is read back from its text, but for its lengths of time. -/
theorem decode?_encode {r : DownloadRecord} (hr : r.Writable) :
    ∃ r', decode? r.encode = some r' ∧ r'.untimed = r.untimed := by
  have hread : decode? r.encode = ofFields? (Fields.held (r.run.fields ++ r.ownFields)) := by
    have hknown : r.ownFields.map Prod.fst = known := rfl
    rw [decode?, encode, toJson, Fields.read?_record r.exact_fields, Option.bind_some, ofJson?,
      r.run.ofObject?_fields hknown, Option.bind_some]
  rw [hread]
  exact ofFields?_held hr

end DownloadRecord

end ContentProbe
