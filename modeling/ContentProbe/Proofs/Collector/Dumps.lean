import ContentProbe.Proofs.Collector.Delivery
import ContentProbe.Proofs.Record.Directory
import ContentProbe.Proofs.Trace.Documents
import Mathlib.Logic.Relation

/-!
The files to which batches are dumped. A batch is written when its call arrives, under the number of the call, and
nothing that happens afterwards touches its file, be the batch matched, given up, taken or thrown away.
-/

namespace ContentProbe

open ContentProbe.Text

/-! Names of files -/

namespace Wire

theorem toList_dumpName (number : Nat) :
    (dumpName number).toList = "trace-".toList ++ natText number ++ ".json".toList := by
  simp [dumpName, natText, toString, Nat.repr]

theorem dumpName_injective : Function.Injective dumpName := by
  intro number number' heq
  have htext := congrArg String.toList heq
  rw [toList_dumpName, toList_dumpName] at htext
  exact natText_injective (List.append_cancel_left (List.append_cancel_right htext))

end Wire

/-! Directories of files -/

namespace Directory

/-- The directory with a file for each batch. -/
def withDumps (d : Directory) (batches : List Wire.Batch) : Directory :=
  (batches.mapIdx fun i b => (Wire.dumpName i, b.dump)).foldl (fun d file => d.replace file.1 file.2) d

theorem withDumps_concat (d : Directory) (batches : List Wire.Batch) (b : Wire.Batch) :
    d.withDumps (batches ++ [b]) = (d.withDumps batches).replace (Wire.dumpName batches.length) b.dump := by
  rw [withDumps, List.mapIdx_concat, List.foldl_append]
  rfl

/-- Files that have another name stay as they are. -/
theorem text?_withDumps_of_ne {d : Directory} {batches : List Wire.Batch} {name : String}
    (h : ∀ i < batches.length, name ≠ Wire.dumpName i) : (d.withDumps batches).text? name = d.text? name := by
  induction batches using List.reverseRecOn with
  | nil => rfl
  | append_singleton batches b ih =>
      rw [List.length_append, List.length_singleton] at h
      rw [withDumps_concat, text?_replace, if_neg (h _ (by omega)), ih fun i hi => h i (by omega)]

theorem text?_withDumps {d : Directory} {batches : List Wire.Batch} {i : Nat} {b : Wire.Batch}
    (h : batches[i]? = some b) : (d.withDumps batches).text? (Wire.dumpName i) = some b.dump := by
  induction batches using List.reverseRecOn with
  | nil => cases h
  | append_singleton batches last ih =>
      rw [withDumps_concat, text?_replace]
      split_ifs with hname
      · obtain rfl := Wire.dumpName_injective hname
        rw [List.getElem?_concat_length] at h
        rw [Option.some.inj h]
      · have hne : i ≠ batches.length := fun heq => hname (congrArg Wire.dumpName heq)
        obtain ⟨hlt, -⟩ := List.getElem?_eq_some_iff.mp h
        rw [List.length_append, List.length_singleton] at hlt
        rw [List.getElem?_append_left (by omega)] at h
        exact ih h

/-- In an empty directory there are the files of the batches and no others, in their order. -/
theorem files_withDumps {d : Directory} (hempty : d.files = []) (batches : List Wire.Batch) :
    (d.withDumps batches).files = batches.mapIdx fun i b => (Wire.dumpName i, b.dump) := by
  have hnone (name : String) : d.text? name = none := by
    rw [text?, hempty]
    rfl
  induction batches using List.reverseRecOn with
  | nil => exact hempty
  | append_singleton batches b ih =>
      have hfresh : (d.withDumps batches).text? (Wire.dumpName batches.length) = none := by
        rw [text?_withDumps_of_ne, hnone]
        intro i hi heq
        exact absurd (Wire.dumpName_injective heq) (by omega)
      rw [withDumps_concat, files_replace hfresh, ih, List.mapIdx_concat]

end Directory

/-! Steps -/

namespace Exchange

theorem dumps_session {s s' : Sessions} {number : Nat} (h : Sessions.Step (some number) s s') :
    s'.collector.dumps = s.collector.dumps := by
  cases h with
  | acquire h =>
      obtain ⟨-, -, rfl⟩ := Sessions.acquire_eq_some_iff.mp h
      rfl
  | register matchers hopen => rfl
  | reset hopen => rfl
  | retire hopen => rfl
  | release hending => rfl

/-- A step either lets a call arrive, whose batch is dumped under its number, or leaves the files alone. -/
theorem Step.dumps {x x' : Exchange} (h : Step x x') :
    (x'.collector.calls = x.collector.calls ∧ x'.exported = x.exported ∧
        x'.collector.dumps = x.collector.dumps) ∨
      ∃ batch, x'.collector.calls = x.collector.calls + 1 ∧
        x'.exported = x.exported ++ [(x.collector.calls, batch)] ∧
        x'.collector.dumps = x.collector.dumps.map (·.replace (Wire.dumpName x.collector.calls) batch.dump) := by
  cases h with
  | session h hquiet => exact Or.inl ⟨(frame_session h).1, rfl, dumps_session h⟩
  | register matchers h hregister => exact Or.inl ⟨(frame_session h).1, rfl, dumps_session h⟩
  | arrive batch granted => exact Or.inr ⟨batch, rfl, rfl, rfl⟩
  | scan call now =>
      refine Or.inl ?_
      rcases x.collector.scan_cases call now with heq | ⟨_, _, _, _, heq, -⟩
      · rw [heq]
        exact ⟨rfl, rfl, rfl⟩
      · rw [heq]
        exact ⟨rfl, rfl, rfl⟩
  | resume call now =>
      refine Or.inl ?_
      rcases x.collector.resume_cases call now with heq | ⟨_, _, _, ⟨heq, -⟩ | ⟨heq, -⟩⟩
      · rw [heq]
        exact ⟨rfl, rfl, rfl⟩
      · rw [heq]
        exact ⟨rfl, rfl, rfl⟩
      · rw [heq]
        exact ⟨rfl, rfl, rfl⟩
  | rearrange harrived hline => exact Or.inl ⟨rfl, rfl, rfl⟩
  | receive hlive hopen hreceive =>
      obtain ⟨htake, -⟩ := Collector.receive_eq_own_iff.mp hreceive
      obtain ⟨rest, -, rfl⟩ := Collector.take_eq_some_iff.mp htake
      exact Or.inl ⟨rfl, rfl, rfl⟩
  | discard hlive hopen hfirst hreceive =>
      obtain ⟨e, htake, -⟩ := Collector.receive_eq_foreign_iff.mp hreceive
      obtain ⟨rest, -, rfl⟩ := Collector.take_eq_some_iff.mp htake
      exact Or.inl ⟨rfl, rfl, rfl⟩
  | close => exact Or.inl ⟨rfl, rfl, rfl⟩

/-! Runs -/

/-- A collector that nothing has happened to, with a directory for batches. -/
def dumping (queueSize sendLimit : Nat) (d : Directory) : Exchange :=
  ⟨⟨.start queueSize sendLimit (some d), [], []⟩, [], [], [], [], []⟩

/-- The batches of the calls, in the order in which they arrived. -/
def batches (x : Exchange) : List Wire.Batch := x.exported.map Prod.snd

/-- The calls are numbered in the order of their arrival, and each batch lies in the file of its number. -/
structure Dumped (d : Directory) (x : Exchange) : Prop where
  numbered : x.collector.calls = x.batches.length
  dumps : x.collector.dumps = some (d.withDumps x.batches)

theorem Dumped.step {d : Directory} {x x' : Exchange} (hx : Dumped d x) (h : Step x x') : Dumped d x' := by
  rcases h.dumps with ⟨hcalls, hexported, hdumps⟩ | ⟨batch, hcalls, hexported, hdumps⟩
  · have hbatches : x'.batches = x.batches := congrArg (List.map Prod.snd) hexported
    exact ⟨by rw [hcalls, hbatches, hx.numbered], by rw [hdumps, hbatches, hx.dumps]⟩
  · have hbatches : x'.batches = x.batches ++ [batch] := by
      rw [batches, hexported, List.map_append, List.map_singleton]
      rfl
    refine ⟨?_, ?_⟩
    · rw [hcalls, hbatches, hx.numbered, List.length_append, List.length_singleton]
    · rw [hdumps, hbatches, hx.dumps, hx.numbered, Option.map_some, Directory.withDumps_concat]

theorem dumped {queueSize sendLimit : Nat} {d : Directory} {x : Exchange}
    (hx : Relation.ReflTransGen Step (dumping queueSize sendLimit d) x) : Dumped d x := by
  induction hx with
  | refl => exact ⟨rfl, rfl⟩
  | tail _ h ih => exact ih.step h

/-- Whatever export calls and sessions do in whatever order: each batch that came lies in the file of its number, any
other file is as it was, and in a directory that was empty there is no other file. The text of a file is the document
of its batch, and no two batches without doubles have the same text. -/
theorem batches_dumped {queueSize sendLimit : Nat} {d : Directory} {x : Exchange}
    (hx : Relation.ReflTransGen Step (dumping queueSize sendLimit d) x) :
    (∃ after, x.collector.dumps = some after ∧
      (d.files = [] → after.files = x.batches.mapIdx fun i b => (Wire.dumpName i, b.dump)) ∧
      (∀ i b, x.batches[i]? = some b → after.text? (Wire.dumpName i) = some b.dump) ∧
      ∀ name, (∀ i < x.batches.length, name ≠ Wire.dumpName i) → after.text? name = d.text? name) ∧
    (∀ b : Wire.Batch, Json.IsDocument b.dump.toList b.toJson) ∧
    ∀ b b' : Wire.Batch, b.DoubleFree → b'.DoubleFree → b.dump = b'.dump → b = b' := by
  refine ⟨⟨_, (dumped hx).dumps, ?_, ?_, ?_⟩, Wire.Batch.isDocument_dump, ?_⟩
  · intro hempty
    exact Directory.files_withDumps hempty x.batches
  · intro i b hb
    exact Directory.text?_withDumps hb
  · intro name hname
    exact Directory.text?_withDumps_of_ne hname
  · intro b b' h h' heq
    exact Wire.Batch.dump_inj h h' heq

theorem doubleFree_namedBatch (name : String) : (namedBatch name).DoubleFree := by
  have hspan : (namedSpan name).DoubleFree :=
    ⟨List.forall_mem_nil _, List.forall_mem_nil _, List.forall_mem_nil _⟩
  have hscope : Wire.ScopeSpans.DoubleFree { spans := [namedSpan name] } :=
    ⟨nofun, List.forall_mem_singleton.mpr hspan⟩
  exact List.forall_mem_singleton.mpr ⟨nofun, List.forall_mem_singleton.mpr hscope⟩

/-- One batch is scanned before the other one comes, and nobody waits for either. -/
theorem unmatched_batches_dumped : ∃ x, Relation.ReflTransGen Step (dumping 8 100 (.empty [])) x ∧
    (∃ after, x.collector.dumps = some after ∧
      after.files = [("trace-0.json", (namedBatch "old").dump), ("trace-1.json", (namedBatch "new").dump)]) ∧
    (namedBatch "old").dump ≠ (namedBatch "new").dump := by
  have hfirst := Relation.ReflTransGen.single (Step.arrive (dumping 8 100 (.empty [])) (namedBatch "old") none)
  have hlast := (hfirst.tail (Step.scan _ 0 0)).tail (Step.arrive _ (namedBatch "new") none)
  obtain ⟨⟨after, hdumps, hfiles, -, -⟩, -, hinj⟩ := batches_dumped hlast
  refine ⟨_, hlast, ⟨after, hdumps, hfiles rfl⟩, fun heq => ?_⟩
  have hsame := hinj _ _ (doubleFree_namedBatch "old") (doubleFree_namedBatch "new") heq
  simp [namedBatch, namedSpan, Wire.Batch.nested] at hsame

end Exchange

end ContentProbe
