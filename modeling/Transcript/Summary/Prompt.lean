import Transcript.Failure
import Transcript.Session.Event
import Transcript.Text.Pattern

/-!
# Prompts

A prompt asks a model for a summary. It is made from a template that has a place for the
conversation and may have places for the greatest number of words. Only the template is searched
for places: what is said in the conversation is copied as it is.
-/

namespace Transcript

/-- The text that marks the place of the conversation. -/
def conversationPlace : String := "\x7bconversation_text\x7d"

/-- The text that marks a place of the greatest number of words. -/
def wordLimitPlace : String := "\x7bmax_summary_words\x7d"

/-- The usual template. -/
def standardTemplate : String :=
  "Summarize the following conversation concisely. Focus on:\n" ++
  "- What was accomplished and what remains to be done\n" ++
  "- Key facts, findings and decisions\n" ++
  "- Failed approaches and why they failed\n" ++
  "- Names, paths and identifiers mentioned verbatim\n\n" ++
  "Rules:\n" ++
  "- Only include facts explicitly stated in the conversation. Do not infer or extrapolate.\n" ++
  "- If there is an existing summary, merge the new information into it to produce a single " ++
  "cohesive summary. Do not simply append. " ++
  "The result must replace the existing summary entirely.\n\n" ++
  conversationPlace

/-! ## The conversation -/

/-- The words of an event, or a note that there are none. -/
def spokenText (e : Event) : String :=
  if e.message.text.isEmpty then "[no content]" else e.message.text

/-- Who speaks, by role and by name if there is one. -/
def speaker (e : Event) : String :=
  if e.author.isEmpty then e.message.role.name else e.message.role.name ++ " " ++ e.author

/-- What an event adds to the conversation. -/
def formatEvent (e : Event) : String := "[" ++ speaker e ++ "]: " ++ spokenText e ++ "\n\n"

/-- The part of the conversation that an earlier summary stands for. -/
def formatPrevious : Option String → String
  | some text =>
    "=== EXISTING SUMMARY ===\n" ++ text ++ "\n\n=== NEW MESSAGES TO SUMMARIZE ===\n"
  | none => ""

/-- The conversation that is to be summed up: the earlier summary, and the events since then. -/
def formatConversation (previous : Option String) (events : List Event) : String :=
  formatPrevious previous ++ String.join (events.map formatEvent)

/-! ## The template -/

/-- A template with a place for the conversation. -/
structure PromptTemplate where
  /-- The text with its places. -/
  template : String := standardTemplate
  /-- The greatest number of words of a summary, or 0 if there is none. -/
  maxWords : Nat := 0
deriving DecidableEq, Repr

namespace PromptTemplate

/-- Whether a text has a place for the conversation. -/
def hasPlace (template : String) : Bool := Text.mentions conversationPlace.toList template.toList

/-- The template with the text, which has to have a place for the conversation. -/
def make (template : String) (maxWords : Nat) : Except Failure PromptTemplate :=
  if hasPlace template then .ok ⟨template, maxWords⟩ else .error (.invalidTemplate "template")

/-- Whether the line speaks of a greatest number of words and of nothing that has to stay. -/
def isLimitLine (line : List Char) : Bool :=
  Text.mentions wordLimitPlace.toList line && !Text.mentions conversationPlace.toList line

/-- The template without a greatest number of words. -/
def withoutLimit (template : List Char) : List Char :=
  Text.substitute wordLimitPlace.toList []
    ((Text.lines template).filter fun line => !isLimitLine line).flatten

/-- The template with the greatest number of words in its places. -/
def withLimit (maxWords : Nat) (template : List Char) : List Char :=
  Text.substitute wordLimitPlace.toList (Nat.toDigits 10 maxWords) template

/-- The template with its places for the greatest number of words filled. -/
def withWords (t : PromptTemplate) : List Char :=
  if t.maxWords = 0 then withoutLimit t.template.toList else withLimit t.maxWords t.template.toList

/-- The rule that is added when a greatest number of words has no place in the template. -/
def closing (t : PromptTemplate) : List Char :=
  if t.maxWords = 0 || Text.mentions wordLimitPlace.toList t.template.toList then []
  else
    "\n\nKeep the summary under ".toList ++ Nat.toDigits 10 t.maxWords ++ " words.".toList

/-- The prompt for the events that come after an earlier summary. -/
def render (t : PromptTemplate) (previous : Option String) (events : List Event) : String :=
  String.ofList <|
    Text.substitute conversationPlace.toList (formatConversation previous events).toList
      t.withWords ++
    t.closing

end PromptTemplate

end Transcript
