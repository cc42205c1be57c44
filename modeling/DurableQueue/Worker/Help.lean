import DurableQueue.Worker.Arguments

/-! What the worker prints when it is asked for help or for its version. -/

namespace DurableQueue
namespace Worker

/-- The name under which the worker is called. -/
def programName : String := "duraq-worker"

/-- The name and the version of the worker. -/
def versionText : String := programName ++ " 0.1.0\n"

/-- What a verb does, in a line. -/
def Verb.summary : Verb → String
  | migrate => "Apply database migrations"
  | cleanup => "Reset tasks stuck in running back to pending"
  | stats => "Print task counts per status as JSON"
  | publish => "Publish a single task"
  | run => "Run the cron scheduler and stuck-task reaper until interrupted"
  | help => "Print this message or the help of the given subcommand(s)"

/-- A part of the help: a heading and entries, whose texts stand in one column. -/
structure Section where
  heading : String
  entries : List (String × String)

/-- The lines of a part, with two blanks between the longest entry and the texts. -/
def Section.lines (s : Section) : List String :=
  let width := (s.entries.map (·.1.length)).foldl max 0
  (s.heading ++ ":") ::
    s.entries.map fun (entry, text) => "  " ++ entry ++ Text.blanks (width - entry.length + 2) ++ text

/-- What is said about a verb or the whole program: what it does, how it is called, and then in parts. -/
structure Guide where
  summary : String
  usage : String
  sections : List Section

/-- The guide as a text, with empty lines between the parts. -/
def Guide.text (g : Guide) : String :=
  let blocks := [g.summary] :: ["Usage: " ++ programName ++ g.usage] :: g.sections.map Section.lines
  "\n\n".intercalate (blocks.map fun lines => "\n".intercalate lines) ++ "\n"

/-- The entry of the option that asks for help. -/
def helpEntry : String × String := ("-h, --help", "Print help")

/-- The guide to a verb. -/
def Verb.guide (verb : Verb) : Guide :=
  let plain : Guide := ⟨verb.summary, " " ++ verb.word, [⟨"Options", [helpEntry]⟩]⟩
  match verb with
  | cleanup =>
    { plain with
      usage := " cleanup [OPTIONS]"
      sections := [⟨"Options",
        [("    --timeout-secs <TIMEOUT_SECS>", "Stuck threshold in seconds (defaults to DURAQ_STUCK_TIMEOUT_SECS)"),
          helpEntry]⟩] }
  | publish =>
    { plain with
      usage := " publish [OPTIONS] <SUBJECT>"
      sections :=
        [⟨"Arguments", [("<SUBJECT>", "Routing subject, e.g. `reports.nightly`")]⟩,
          ⟨"Options",
            [("    --payload <PAYLOAD>", "Payload, stored as raw bytes [default: ]"),
              ("    --delay-secs <DELAY_SECS>", "Delay before the task becomes eligible"),
              ("    --max-attempts <MAX_ATTEMPTS>", ""), helpEntry]⟩] }
  | help =>
    { plain with
      usage := " help [COMMAND]..."
      sections := [⟨"Arguments", [("[COMMAND]...", "Print help for the subcommand(s)")]⟩] }
  | _ => plain

/-- The guide to the whole program. -/
def guide : Guide where
  summary := "Durable task queue worker"
  usage := " <COMMAND>"
  sections :=
    [⟨"Commands", Verb.all.map fun verb => (verb.word, verb.summary)⟩,
      ⟨"Options", [helpEntry, ("-V, --version", "Print version")]⟩]

/-- The help about a topic. -/
def helpText : Option Verb → String
  | none => guide.text
  | some verb => verb.guide.text

end Worker
end DurableQueue
