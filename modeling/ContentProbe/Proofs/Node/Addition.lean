import ContentProbe.Proofs.Json.Mended
import ContentProbe.Proofs.Node.Members
import ContentProbe.Proofs.Node.Reset
import ContentProbe.Proofs.Text.Lines

/-!
Replies to additions. What an addition comes to is told by the status and the body of the reply: by the cause of a
failure, as the body tells it or as it stands, or by the last line that is not blank, whatever the lines before it
hold.
-/

namespace ContentProbe.Node

open ContentProbe.Text Json Members

variable {σ : Type}

/-! Entries and causes -/

/-- The value tells the content id of an entry. -/
def TellsEntry (j : Json) (hash : String) : Prop := Tells ["Hash"] j [some (.text hash)]

/-- The numeral is a whole number of 64 bits, written without point and exponent. There is no minus zero. -/
structure WholeNumber (n : Numeral) (value : Int) : Prop where
  fraction : n.fraction = []
  exponent : n.exponent = none
  signed : value = if n.negative then -(n.whole : Int) else n.whole
  minus : n.negative = true → n.whole ≠ 0
  least : -2 ^ 63 ≤ value
  most : value < 2 ^ 63

/-- The value tells the cause of a failed command: its message, and its code and kind unless they are missing. -/
def TellsCause (j : Json) (message : String) (code : Int) (kind : String) : Prop :=
  ∃ codeMember kindMember, Tells ["Message", "Code", "Type"] j [some (.text message), codeMember, kindMember] ∧
    ((codeMember = none ∧ code = 0) ∨ ∃ n, codeMember = some (.number n) ∧ WholeNumber n code) ∧
    ((kindMember = none ∧ kind = "") ∨ kindMember = some (.text kind))

theorem text?_eq_some_iff {j : Json} {s : String} : text? j = some s ↔ j = .text s := by
  cases j <;> simp [text?, Json.text]

theorem toInt64?_eq_some_iff {n : Numeral} {value : Int} :
    n.toInt64?.map Int64.toInt = some value ↔ WholeNumber n value := by
  have hwhole : n.isWhole = true ↔ n.fraction = [] ∧ n.exponent = none := by
    rw [Numeral.isWhole, Bool.and_eq_true, List.isEmpty_iff, Option.isNone_iff_eq_none]
  have hbound : Nat.pow 2 63 = 2 ^ 63 := rfl
  unfold Numeral.toInt64?
  rw [hbound]
  constructor
  · intro h
    obtain ⟨number, hnumber, rfl⟩ := Option.map_eq_some_iff.mp h
    split_ifs at hnumber with hbroken hnegative hrange hrange
    all_goals
      obtain ⟨hfraction, hexponent⟩ := hwhole.mp (by simpa using hbroken)
      obtain rfl := Option.some.inj hnumber
    · have hvalue := Int64.toInt_ofInt_of_le (by omega : -2 ^ 63 ≤ -(n.whole : Int)) (by omega)
      exact ⟨hfraction, hexponent, by rw [hvalue, if_pos hnegative], by omega, by omega, by omega⟩
    · have hvalue := Int64.toInt_ofInt_of_le (by omega : -2 ^ 63 ≤ (n.whole : Int)) (by omega)
      exact ⟨hfraction, hexponent, by rw [hvalue, if_neg hnegative], fun h => absurd h hnegative, by omega, by omega⟩
  · intro h
    have hread : n.isWhole = true := hwhole.mpr ⟨h.fraction, h.exponent⟩
    have hsigned := h.signed
    have hleast := h.least
    have hmost := h.most
    have hvalue : (Int64.ofInt value).toInt = value := Int64.toInt_ofInt_of_le hleast hmost
    rw [if_neg (by simp [hread])]
    by_cases hnegative : n.negative = true
    · have hminus := h.minus hnegative
      rw [if_pos hnegative] at hsigned
      rw [if_pos hnegative, if_pos (by omega), ← hsigned, Option.map_some, hvalue]
    · rw [if_neg hnegative] at hsigned
      rw [if_neg hnegative, if_pos (by omega), ← hsigned, Option.map_some, hvalue]

/-- A code may be missing, and then is zero. -/
theorem code_eq_some_iff {member : Option Json} {code : Int} : orElse 0 int? member = some code ↔
    (member = none ∧ code = 0) ∨ ∃ n, member = some (.number n) ∧ WholeNumber n code := by
  cases member with
  | none => simp [orElse, eq_comm]
  | some j =>
      cases j with
      | number n => simpa [orElse, int?] using toInt64?_eq_some_iff
      | _ => simp [orElse, int?]

/-- A kind may be missing, and then is empty. -/
theorem kind_eq_some_iff {member : Option Json} {kind : String} : orElse "" text? member = some kind ↔
    (member = none ∧ kind = "") ∨ member = some (.text kind) := by
  cases member with
  | none => simp [orElse, eq_comm]
  | some j => simp [orElse, text?_eq_some_iff]

theorem message_eq_some_iff {member : Option Json} {s : String} :
    required text? member = some s ↔ member = some (.text s) := by
  rw [required, Option.bind_eq_some_iff]
  simp [text?_eq_some_iff]

theorem entryHash?_eq_some_iff {j : Json} {hash : String} : entryHash? j = some hash ↔ TellsEntry j hash := by
  rw [TellsEntry, ← ofJson?_eq_some_iff]
  constructor
  · intro h
    obtain ⟨members, hmembers, h⟩ := Option.bind_eq_some_iff.mp h
    split at h
    · obtain rfl := message_eq_some_iff.mp h
      exact hmembers
    · cases h
  · intro h
    rw [entryHash?, h]
    rfl

theorem cause?_eq_some_iff {j : Json} {message : String} {code : Int} {kind : String} :
    cause? j = some (message, code, kind) ↔ TellsCause j message code kind := by
  unfold TellsCause
  simp only [← ofJson?_eq_some_iff, ← code_eq_some_iff, ← kind_eq_some_iff]
  constructor
  · intro h
    obtain ⟨members, hmembers, h⟩ := Option.bind_eq_some_iff.mp h
    split at h
    · obtain ⟨_, hmessage, h⟩ := Option.bind_eq_some_iff.mp h
      obtain ⟨_, hcode, h⟩ := Option.bind_eq_some_iff.mp h
      obtain ⟨_, hkind, h⟩ := Option.bind_eq_some_iff.mp h
      cases h
      obtain rfl := message_eq_some_iff.mp hmessage
      exact ⟨_, _, hmembers, hcode, hkind⟩
    · cases h
  · rintro ⟨codeMember, kindMember, hmembers, hcode, hkind⟩
    rw [cause?, hmembers]
    simp only [Option.bind_eq_bind, Option.bind_some, message_eq_some_iff.mpr rfl, hcode, hkind]
    rfl

/-- The body tells the cause of a failed command. -/
def CauseText (body : List UInt8) (message : String) (code : Int) (kind : String) : Prop :=
  ∃ j, HoldsDocument body j ∧ TellsCause j message code kind

/-- The line by itself is an entry with the content id. -/
def EntryText (line : List Char) (hash : String) : Prop := ∃ j, IsDocument line j ∧ TellsEntry j hash

def BlankLine (line : List Char) : Prop := ∀ c ∈ line, isBlank c = true

theorem causeText_iff {body : List UInt8} {message : String} {code : Int} {kind : String} :
    (jsonOf? body).bind cause? = some (message, code, kind) ↔ CauseText body message code kind := by
  rw [Option.bind_eq_some_iff]
  exact exists_congr fun _ => and_congr readBytes?_eq_some_iff cause?_eq_some_iff

theorem entryText_iff {line : List Char} {hash : String} :
    (Json.read? line).bind entryHash? = some hash ↔ EntryText line hash := by
  rw [Option.bind_eq_some_iff]
  exact exists_congr fun _ => and_congr read?_eq_some_iff entryHash?_eq_some_iff

/-! Failures -/

theorem isSuccess_iff {r : Reply} : r.isSuccess = true ↔ 200 ≤ r.status ∧ r.status < 300 := by
  rw [Reply.isSuccess, Bool.and_eq_true, decide_eq_true_iff, decide_eq_true_iff]

theorem cause_of_text {status : Nat} {body : List UInt8} {message : String} {code : Int} {kind : String}
    (h : CauseText body message code kind) : Reply.cause status body = .command status message code kind := by
  rw [Reply.cause, causeText_iff.mpr h]

theorem cause_of_none {status : Nat} {body : List UInt8} (h : ∀ message code kind, ¬CauseText body message code kind) :
    Reply.cause status body = .command status (trimmed (utf8Lossy body)) 0 "" := by
  have hnone : (jsonOf? body).bind cause? = none := by
    refine Option.eq_none_iff_forall_ne_some.mpr ?_
    rintro ⟨message, code, kind⟩ hsome
    exact h message code kind (causeText_iff.mp hsome)
  rw [Reply.cause, hnone]

/-! Successes -/

theorem blankLine_iff {line : List Char} : (!line.all isBlank) = false ↔ BlankLine line := by
  rw [Bool.not_eq_false', List.all_eq_true, BlankLine]

/-- The last line that is not blank is found from the end. -/
theorem find?_last {earlier later : List (List Char)} {last : List Char} (hlast : ¬BlankLine last)
    (hlater : ∀ line ∈ later, BlankLine line) :
    (earlier ++ last :: later).reverse.find? (fun line => !line.all isBlank) = some last := by
  have hnone : later.reverse.find? (fun line => !line.all isBlank) = none := by
    rw [List.find?_eq_none]
    intro line hline
    rw [Bool.not_eq_true, blankLine_iff]
    exact hlater line (List.mem_reverse.mp hline)
  have hfound : (!last.all isBlank) = true := by
    rwa [← blankLine_iff, Bool.not_eq_false] at hlast
  rw [List.reverse_append, List.reverse_cons, List.append_assoc, List.singleton_append, List.find?_append, hnone,
    Option.none_or, List.find?_cons, hfound]

theorem addedContentId_of_last {body : List UInt8} {earlier later : List (List Char)} {last : List Char}
    (hlines : splitLines (utf8Lossy body).toList = earlier ++ last :: later) (hlast : ¬BlankLine last)
    (hlater : ∀ line ∈ later, BlankLine line) :
    (∀ hash, addedContentId body = .ok hash ↔ EntryText last hash) ∧
      (addedContentId body = .error .entry ↔ ∀ hash, ¬EntryText last hash) := by
  rw [addedContentId, hlines, find?_last hlast hlater]
  simp only [← entryText_iff]
  cases (Json.read? last).bind entryHash? with
  | none => simp
  | some hash => simp

theorem addedContentId_eq_noContentId_iff {body : List UInt8} :
    addedContentId body = .error .noContentId ↔
      ∀ line ∈ splitLines (utf8Lossy body).toList, BlankLine line := by
  have hnone : (splitLines (utf8Lossy body).toList).reverse.find? (fun line => !line.all isBlank) = none ↔
      ∀ line ∈ splitLines (utf8Lossy body).toList, BlankLine line := by
    rw [List.find?_eq_none]
    simp only [List.mem_reverse, Bool.not_eq_true, blankLine_iff]
  rw [← hnone, addedContentId]
  split
  · simp [*]
  · split <;> simp [*]

/-! Additions -/

variable {n : Node σ} {context : ProbeContext} {pinName : String} {content : List UInt8} {s : σ} {reply : Reply}

theorem add_eq (hreply : (n.answer (.add context pinName content) s).1 = some reply) :
    (n.add context pinName content s).1 = reply.checked.bind fun r => r.data.bind addedContentId := by
  rw [add, callFor_eq, hreply]
  rfl

theorem add_of_failed (hreply : (n.answer (.add context pinName content) s).1 = some reply)
    (hwhole : reply.isWhole = true) (hfailed : ¬reply.isSuccess = true) :
    (n.add context pinName content s).1 = .error (Reply.cause reply.status reply.body) := by
  rw [add_eq hreply, Reply.checked, if_neg hfailed, data_eq_ok_iff.mpr ⟨hwhole, rfl⟩]
  rfl

theorem add_of_success (hreply : (n.answer (.add context pinName content) s).1 = some reply)
    (hwhole : reply.isWhole = true) (hsuccess : reply.isSuccess = true) :
    (n.add context pinName content s).1 = addedContentId reply.body := by
  have hdata : reply.data = .ok reply.body := data_eq_ok_iff.mpr ⟨hwhole, rfl⟩
  rw [add_eq hreply, checked_eq_ok_iff.mpr ⟨rfl, hsuccess⟩]
  change reply.data.bind addedContentId = _
  rw [hdata]
  rfl

/-- Of a reply that is read completely, an addition makes a failed command with the cause that the body tells, or with
the body as it stands; or, if the reply tells of success, the content id in the last line that is not blank. -/
theorem additions_classified (n : Node σ) (context : ProbeContext) (pinName : String) (content : List UInt8) (s : σ)
    {reply : Reply} (hreply : (n.answer (.add context pinName content) s).1 = some reply)
    (hwhole : reply.isWhole = true) :
    let outcome := (n.add context pinName content s).1
    (¬(200 ≤ reply.status ∧ reply.status < 300) →
      (∀ message code kind, CauseText reply.body message code kind →
        outcome = .error (.command reply.status message code kind)) ∧
      ((∀ message code kind, ¬CauseText reply.body message code kind) →
        outcome = .error (.command reply.status (trimmed (utf8Lossy reply.body)) 0 ""))) ∧
    (200 ≤ reply.status ∧ reply.status < 300 → ∃ lines, Lined (utf8Lossy reply.body).toList lines ∧
      (outcome = .error .noContentId ↔ ∀ line ∈ lines, BlankLine line) ∧
      ∀ earlier last later, lines = earlier ++ last :: later → ¬BlankLine last → (∀ line ∈ later, BlankLine line) →
        (∀ hash, outcome = .ok hash ↔ EntryText last hash) ∧
        (outcome = .error .entry ↔ ∀ hash, ¬EntryText last hash)) := by
  dsimp only
  rw [← isSuccess_iff]
  constructor
  · intro hfailed
    rw [add_of_failed hreply hwhole hfailed]
    constructor
    · intro message code kind h
      rw [cause_of_text h]
    · intro h
      rw [cause_of_none h]
  · intro hsuccess
    rw [add_of_success hreply hwhole hsuccess]
    refine ⟨_, lined_splitLines _, addedContentId_eq_noContentId_iff, ?_⟩
    intro earlier last later hlines hlast hlater
    exact addedContentId_of_last hlines hlast hlater

/-- Two lines that are passed over, the second one being an entry, before the last one that is not blank. -/
def progressText : String := "working\r\n[\"first\"]\n\x7b\"Size\":1,\"Hash\":\"last\"\x7d\r\n \n"

/-- A node that tells of its progress. -/
def talkativeNode : Node Unit := ⟨"", fun _ s => (some ⟨200, utf8Bytes progressText, true⟩, s)⟩

theorem talkative_addition_classified :
    (talkativeNode.answer (.add ⟨⟨1⟩, ⟨1⟩⟩ "pin" []) ()).1 = some ⟨200, utf8Bytes progressText, true⟩ ∧
      (talkativeNode.add ⟨⟨1⟩, ⟨1⟩⟩ "pin" [] ()).1 = .ok "last" := by
  refine ⟨rfl, ?_⟩
  obtain ⟨lines, hlined, -, hlast⟩ :=
    (additions_classified talkativeNode ⟨⟨1⟩, ⟨1⟩⟩ "pin" [] () rfl rfl).2 ⟨by decide, by decide⟩
  have hlines : lines = ["working".toList, "[\"first\"]".toList] ++
      "\x7b\"Size\":1,\"Hash\":\"last\"\x7d".toList :: [" ".toList] := by
    rw [hlined.eq, utf8Lossy_utf8Bytes]
    rfl
  have hblank : ¬BlankLine "\x7b\"Size\":1,\"Hash\":\"last\"\x7d".toList := by
    rw [← blankLine_iff, Bool.not_eq_false]
    rfl
  have hlater : ∀ line ∈ [" ".toList], BlankLine line := List.forall_mem_singleton.mpr (blankLine_iff.mp rfl)
  have hentry : (Json.read? "\x7b\"Size\":1,\"Hash\":\"last\"\x7d".toList).bind entryHash? = some "last" := by
    decide +kernel
  exact ((hlast _ _ _ hlines hblank hlater).1 "last").mpr (entryText_iff.mp hentry)

end ContentProbe.Node
