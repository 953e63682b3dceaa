import CommitReports.Proofs.Calendar.Reading
import CommitReports.Proofs.Git.Changes
import CommitReports.Proofs.Text.Pieces

/-!
# What a commit says of itself, read back

The text that a commit says of itself has three parts: three lines on the commit, an empty
one behind them; the lines of the message, each moved four blanks to the right, and an
empty one behind them; and the lines of the changes (`CommitInfo.pieces_summary`). The
message may say anything, and be empty, and so may the changes be: only the lines of the
message begin with four blanks there, so a reader finds where it starts and ends
(`SummaryParts.ofText_of_pieces`). One line feed at the end of the text is dropped. It ends
the last line of the changes or, where there are none, the empty line before them, and no
line is lost by that.

So what was put together can be told apart again, and commits with different messages never
say the same (`whatChanged_parts`).
-/

namespace CommitReports

namespace Git

/-! ## The parts of the text -/

/-- The name of an author as it is shown. -/
def Signature.nameText (signature : Signature) : String :=
  (Text.decode? ⟨signature.name.toArray⟩).getD "Unknown"

/-- The address of an author as it is shown. -/
def Signature.emailText (signature : Signature) : String :=
  (Text.decode? ⟨signature.email.toArray⟩).getD ""

/-- The lines of a message; none if it is no text. -/
def CommitInfo.messageLines (info : CommitInfo) : List String :=
  ((Text.decode? ⟨info.message.toArray⟩).map Text.linesOf).getD []

/-- The lines that changes are told on. -/
def statusLines (deltas : List Delta) : List String := (Text.pieces (statusText deltas)).dropLast

/-- What a commit says of itself, part by part. -/
structure SummaryParts where
  header : List String
  message : List String
  changes : List String
  deriving DecidableEq, Repr

/-- What is put together when a commit is told. -/
def CommitInfo.parts (info : CommitInfo) (id : ObjectId) (deltas : List Delta) : SummaryParts where
  header :=
    ["commit " ++ id.hex,
      "Author: " ++ info.author.nameText ++ " <" ++ info.author.emailText ++ ">",
      "Date:   " ++ Calendar.text info.author.seconds (info.author.offset * 60)]
  message := info.messageLines
  changes := statusLines deltas

namespace SummaryParts

/-- What moves the lines of a message to the right. -/
def margin : String := "    "

/-- The parts, line by line. -/
def lines (parts : SummaryParts) : List String :=
  parts.header ++ "" :: (parts.message.map (margin ++ ·) ++ "" :: parts.changes)

/-- Whether a line is moved to the right. -/
def isIndented (line : String) : Bool := margin.toList.isPrefixOf line.toList

/-- A line that was moved to the right, moved back. -/
def unindented (line : String) : String := String.ofList (line.toList.drop margin.length)

/-- Reads the parts: behind the fourth line, the message goes as far as lines are moved to the
right. -/
def ofText (text : String) : SummaryParts :=
  let behind := (Text.pieces text).drop 4
  { header := (Text.pieces text).take 3
    message := (behind.takeWhile isIndented).map unindented
    changes := (behind.dropWhile isIndented).drop 1 }

/-- Wherever the lines come from, the parts that they were made of are read. -/
theorem ofText_of_pieces {parts : SummaryParts} {text : String} (hheader : parts.header.length = 3)
    (h : Text.pieces text = parts.lines) : ofText text = parts := by
  have hbehind : (Text.pieces text).drop 4 =
      parts.message.map (margin ++ ·) ++ "" :: parts.changes := by
    rw [h, lines, ← List.singleton_append, ← List.append_assoc, List.drop_left' (by simp [hheader])]
  have hindented : ∀ line ∈ parts.message.map (margin ++ ·), isIndented line = true := by
    simp [isIndented, String.toList_append]
  have hempty : isIndented "" = false := by decide
  have hunindented : ∀ line, unindented (margin ++ line) = line := by
    intro line
    rw [unindented, String.toList_append, List.drop_left' String.length_toList, String.ofList_toList]
  have hmessage : (parts.message.map (margin ++ ·)).map unindented = parts.message := by
    rw [List.map_map]
    exact (List.map_congr_left fun line _ => hunindented line).trans (List.map_id _)
  unfold ofText
  dsimp only
  rw [hbehind, List.takeWhile_append_of_pos hindented, List.dropWhile_append_of_pos hindented,
    List.takeWhile_cons_of_neg (by simp [hempty]), List.dropWhile_cons_of_neg (by simp [hempty]),
    List.append_nil, hmessage, h, lines, List.take_left' hheader, List.drop_one, List.tail_cons]

end SummaryParts

/-! ## Putting them together -/

theorem ended_statusText (deltas : List Delta) : Text.Ended (statusText deltas) :=
  Text.ended_join (List.forall_mem_map.mpr fun _ _ => .inr ⟨_, rfl⟩)

namespace CommitInfo

variable {info : CommitInfo} {id : ObjectId} {deltas : List Delta}

/-- What bytes without line feeds stand for has none either, nor does what stands in for it. -/
theorem lineFeed_not_mem_getD {bytes : List UInt8} {other : String} (h : 10 ∉ bytes)
    (hother : '\n' ∉ other.toList) :
    '\n' ∉ ((Text.decode? ⟨bytes.toArray⟩).getD other).toList := by
  cases htext : Text.decode? ⟨bytes.toArray⟩ with
  | none => exact hother
  | some text => exact lineFeed_not_mem_of_decode? htext h

theorem lineFeed_not_mem_messageLines (info : CommitInfo) :
    ∀ line ∈ info.messageLines, '\n' ∉ line.toList := by
  intro line hline
  unfold messageLines at hline
  cases htext : Text.decode? ⟨info.message.toArray⟩ with
  | none => simp [htext] at hline
  | some text =>
    rw [htext, Option.map_some, Option.getD_some] at hline
    obtain ⟨cs, hcs, rfl⟩ := List.mem_map.mp hline
    rw [String.toList_ofList]
    exact Text.not_mem_of_mem_lines hcs

theorem summary_eq (info : CommitInfo) (id : ObjectId) (deltas : List Delta) :
    info.summary id deltas = Text.dropFinalNewline
      (Text.unlines ((info.parts id deltas).header ++ "" ::
        (info.messageLines.map (SummaryParts.margin ++ ·) ++ [""])) ++ statusText deltas) := by
  have hself : ∀ text : String, toString text = text := fun _ => rfl
  unfold summary
  refine congrArg Text.dropFinalNewline (String.toList_inj.mp ?_)
  simp [hself, Text.toList_unlines, String.toList_append, parts, Signature.nameText,
    Signature.emailText, messageLines, SummaryParts.margin]

/-- The text of a commit is its parts, line by line. -/
theorem pieces_summary {store : ObjectStore} (hcommit : store.commit id = .ok info)
    (hid : ObjectId.ofText? id.hex = some id) :
    Text.pieces (info.summary id deltas) = (info.parts id deltas).lines := by
  have hauthor := store.lineFeed_not_mem_author hcommit
  have hsigned : '\n' ∉ info.author.nameText.toList ∧ '\n' ∉ info.author.emailText.toList :=
    ⟨lineFeed_not_mem_getD hauthor.1 (by decide), lineFeed_not_mem_getD hauthor.2 (by decide)⟩
  have hheader : ∀ line ∈ (info.parts id deltas).header, '\n' ∉ line.toList := by
    simp [parts, String.toList_append, ObjectId.lineFeed_not_mem hid, hsigned,
      Calendar.lineFeed_not_mem_text]
  have hmessage : ∀ line ∈ info.messageLines, '\n' ∉ line.toList :=
    lineFeed_not_mem_messageLines info
  have hlines : ∀ line ∈ (info.parts id deltas).header ++ "" ::
      (info.messageLines.map (SummaryParts.margin ++ ·) ++ [""]), '\n' ∉ line.toList := by
    have hmargin : '\n' ∉ SummaryParts.margin.toList := by decide
    simp only [List.forall_mem_append, List.forall_mem_cons, List.forall_mem_map]
    refine ⟨hheader, by simp, fun line hline => ?_, by simp⟩
    rw [String.toList_append, List.mem_append]
    exact not_or.mpr ⟨hmargin, hmessage line hline⟩
  have hended := (Text.ended_unlines ((info.parts id deltas).header ++ "" ::
    (info.messageLines.map (SummaryParts.margin ++ ·) ++ [""]))).append (ended_statusText deltas)
  have hne : Text.pieces (statusText deltas) ≠ [] := by
    simp [Text.pieces]
  rw [summary_eq, Text.pieces_dropFinalNewline hended (by simp [parts, Text.unlines_cons]),
    Text.pieces_unlines_append hlines, List.dropLast_append_of_ne_nil hne]
  simp [SummaryParts.lines, parts, statusLines]

/-- So its parts are read. -/
theorem ofText_summary {store : ObjectStore} (hcommit : store.commit id = .ok info)
    (hid : ObjectId.ofText? id.hex = some id) :
    SummaryParts.ofText (info.summary id deltas) = info.parts id deltas :=
  SummaryParts.ofText_of_pieces rfl (pieces_summary hcommit hid)

end CommitInfo

/-- The lines of the changes are those of the listing, all of them. -/
theorem unlines_statusLines (deltas : List Delta) :
    Text.unlines (statusLines deltas) = statusText deltas :=
  Text.unlines_dropLast_pieces (ended_statusText deltas)

namespace Workspace

variable {site : Site Workspace} {name : String} {id : ObjectId} {info : CommitInfo}

/-- **What a commit says of itself is told apart again**: its header, the lines of its message and
those of its changes, whatever they are. Commits whose messages have different lines do not say the
same. -/
theorem whatChanged_parts (h : site.resource.here.Reads name id info)
    (hid : ObjectId.ofText? id.hex = some id) :
    let deltas := site.resource.here.deltasOf id info
    ∃ text, ((History.whatChanged name : Action Workspace String).perform site).1 = .ok text ∧
      Text.pieces text =
        ["commit " ++ id.hex,
          "Author: " ++ info.author.nameText ++ " <" ++ info.author.emailText ++ ">",
          "Date:   " ++ Calendar.text info.author.seconds (info.author.offset * 60), ""] ++
        info.messageLines.map ("    " ++ ·) ++ "" :: statusLines deltas ∧
      Text.unlines (statusLines deltas) = statusText deltas ∧
      SummaryParts.ofText text = info.parts id deltas ∧
      ∀ (other : Site Workspace) (name' : String) (id' : ObjectId) (info' : CommitInfo),
        other.resource.here.Reads name' id' info' → ObjectId.ofText? id'.hex = some id' →
        info'.messageLines ≠ info.messageLines →
        ((History.whatChanged name' : Action Workspace String).perform other).1 ≠ .ok text := by
  intro deltas
  have hparts : SummaryParts.ofText (info.summary id deltas) = info.parts id deltas :=
    CommitInfo.ofText_summary h.commit hid
  refine ⟨_, (settled_whatChanged h site rfl).1, ?_, unlines_statusLines deltas, hparts, ?_⟩
  · rw [CommitInfo.pieces_summary h.commit hid]
    simp [SummaryParts.lines, CommitInfo.parts, SummaryParts.margin, deltas]
  · intro other name' id' info' h' hid' hmessage hsame
    rw [(settled_whatChanged h' other rfl).1, Except.ok.injEq] at hsame
    have hparts' : SummaryParts.ofText (info'.summary id' (other.resource.here.deltasOf id' info')) =
        info'.parts id' _ := CommitInfo.ofText_summary h'.commit hid'
    rw [hsame, hparts] at hparts'
    exact hmessage (congrArg SummaryParts.message hparts').symm

end Workspace

/-! ## A message that looks like something else -/

/-- A message with lines that stand elsewhere in the text of a commit. -/
def disguise : String := "commit\n\n    Date:   1\n:100644 M\tf"

/-- A first commit with this message, and no files. -/
def ObjectStore.disguised : ObjectStore where
  objects :=
    [(.uniform 'a', .commit
        ({ CommitDraft.plain [] "1 +0000" with message := disguise.toUTF8 }.text (.uniform 'e'))),
      (.uniform 'e', .tree [])]

/-- What the commit of this store says. -/
def CommitInfo.disguised : CommitInfo :=
  { CommitInfo.plain (.uniform 'e') [] 1 with message := disguise.toUTF8.toList }

theorem ObjectStore.commit_disguised : disguised.commit (.uniform 'a') = .ok .disguised := by
  have hids : ∀ id ∈ ['e'].map ObjectId.uniform, ObjectId.ofText? id.hex = some id :=
    ObjectId.ofText?_uniforms (by decide)
  have hmessage : (disguise.toUTF8.toList.takeWhile (· != 0)).dropWhile (· == 10) =
      disguise.toUTF8.toList := by
    rw [toList_toUTF8]
    decide
  rw [commit_saying disguise.toUTF8 rfl hids Signature.read_plain, hmessage]
  rfl

/-- The message is told apart from the lines around it. -/
theorem Workspace.whatChanged_parts_disguised :
    let site := single { objects := .disguised }
    let id := ObjectId.uniform 'a'
    let deltas := site.resource.here.deltasOf id .disguised
    site.resource.here.Reads id.hex id .disguised ∧ ObjectId.ofText? id.hex = some id ∧
    CommitInfo.disguised.messageLines = ["commit", "", "    Date:   1", ":100644 M\tf"] ∧
    ∃ text, ((History.whatChanged id.hex : Action Workspace String).perform site).1 = .ok text ∧
      Text.pieces text =
        ["commit " ++ id.hex, "Author: " ++ CommitInfo.disguised.author.nameText ++ " <" ++
            CommitInfo.disguised.author.emailText ++ ">",
          "Date:   " ++ Calendar.text 1 0, ""] ++
        CommitInfo.disguised.messageLines.map ("    " ++ ·) ++ "" :: statusLines deltas ∧
      Text.unlines (statusLines deltas) = statusText deltas ∧
      SummaryParts.ofText text = CommitInfo.disguised.parts id deltas ∧
      ∀ (other : Site Workspace) (name' : String) (id' : ObjectId) (info' : CommitInfo),
        other.resource.here.Reads name' id' info' → ObjectId.ofText? id'.hex = some id' →
        info'.messageLines ≠ CommitInfo.disguised.messageLines →
        ((History.whatChanged name' : Action Workspace String).perform other).1 ≠ .ok text := by
  intro site id deltas
  have hid : ObjectId.ofText? id.hex = some id := ObjectId.ofText?_uniform (by decide) (by decide)
  have hcommit : site.resource.here.objects.commit id = .ok .disguised :=
    ObjectStore.commit_disguised
  have hreads : site.resource.here.Reads id.hex id .disguised :=
    ⟨Repository.commitNamed?_hex hid hcommit, hcommit, by
      simp [CommitInfo.disguised, CommitInfo.plain]⟩
  have hlines : CommitInfo.disguised.messageLines =
      ["commit", "", "    Date:   1", ":100644 M\tf"] := by
    have htext : Text.decode? ⟨CommitInfo.disguised.message.toArray⟩ = some disguise :=
      fromUTF8?_toList disguise
    rw [CommitInfo.messageLines, htext]
    decide
  exact ⟨hreads, hid, hlines, whatChanged_parts hreads hid⟩

end Git

end CommitReports
