import AgentValet.Lang.Replace
import Mathlib.Data.Bool.AllAny

namespace AgentValet.Permissions
open Base Lang.JavaScript

structure Permission where
  platformId : Text
  platformName : Text
  scopes : List Text
  requireApproval : Bool

def lit (s : String) : Text := s.toList

/-- `texts.join(separator)` -/
def join (separator : Text) (texts : List Text) : Text := (texts.intersperse separator).flatten

def scopeLine (s : Text) : Text := lit "  - \x60" ++ s ++ lit "\x60"

def platformSection (p : Permission) : Text :=
  lit "### " ++ p.platformName ++ lit " (\x60" ++ p.platformId ++
    lit "\x60)\n\nApproved scopes:\n" ++
    join ['\n'] (p.scopes.map scopeLine) ++ ['\n'] ++
    if p.requireApproval then lit "\n  > Requires human approval before executing.\n" else []

def platformSections (permissions : List Permission) : Text :=
  if permissions.isEmpty then
    lit "_No platforms approved yet. Visit https://app.agentvalet.ai to connect platforms._"
  else join (lit "\n\n") (permissions.map platformSection)

def howToCall : List String :=
  ["", "", "---", "", "## How to call a platform", "",
    "All platform calls **must** go through the \x60mcp__agentvalet__use_platform\x60 MCP tool.",
    "",
    "**NEVER** write inline JWT signing code, \x60node -e\x60 scripts, or manual HTTP calls. " ++
      "The MCP tool handles all authentication internally.", "",
    "\x60\x60\x60", "mcp__agentvalet__use_platform(\x7b", "  platform: \"<platformId>\",",
    "  endpoint: \"<endpoint>\",", "  method: \"POST\",", "  scope: \"<scope>\",",
    "  data: \x7b ... \x7d", "\x7d)", "\x60\x60\x60", "",
    "To refresh this file: \x60npx @agentvalet/register refresh\x60", ""]

def heading (agentId ownerId now : Text) : Text :=
  lit "# AgentValet Permissions\n\nAgent ID: \x60" ++ agentId ++
    lit "\x60\nOwner ID: \x60" ++ ownerId ++
    lit "\x60\nLast refreshed: " ++ now ++ lit "\n\n---\n\n## Approved Platforms\n\n"

def generatePermissionsFile (agentId ownerId now : Text) (permissions : List Permission) : Text :=
  heading agentId ownerId now ++ platformSections permissions ++ join ['\n'] (howToCall.map lit)

/-- Two markers within a line, which do not overlap. -/
structure Markers where
  start : Text
  stop : Text
  start_ne : start ≠ []
  stop_ne : stop ≠ []
  start_line : ∀ c ∈ start, isLineEnd c = false
  stop_line : ∀ c ∈ stop, isLineEnd c = false
  no_dollar : '$' ∉ start ∧ '$' ∉ stop
  start_once : occurrences start start = 1
  stop_once : occurrences stop stop = 1
  start_in_stop : occurrences start stop = 0
  stop_in_start : occurrences stop start = 0

def permissionsMarkers : Markers where
  start := lit "<!-- agentvalet:permissions:start -->"
  stop := lit "<!-- agentvalet:permissions:end -->"
  start_ne := by decide
  stop_ne := by decide
  start_line := List.all_iff_forall_prop.1 (by decide)
  stop_line := List.all_iff_forall_prop.1 (by decide)
  no_dollar := by decide
  start_once := by decide
  stop_once := by decide
  start_in_stop := by decide
  stop_in_start := by decide

def claudeMarkers : Markers where
  start := lit "<!-- agentvalet:start -->"
  stop := lit "<!-- agentvalet:end -->"
  start_ne := by decide
  stop_ne := by decide
  start_line := List.all_iff_forall_prop.1 (by decide)
  stop_line := List.all_iff_forall_prop.1 (by decide)
  no_dollar := by decide
  start_once := by decide
  stop_once := by decide
  start_in_stop := by decide
  stop_in_start := by decide

def block (d : Markers) (content : Text) : Text :=
  d.start ++ '\n' :: (layout.trimEnd content ++ '\n' :: d.stop)

/-- A block that is there is replaced; otherwise one is added to what cleaning leaves. -/
def embed (d : Markers) (clean : Text → Text) (existing content : Text) : Text :=
  if includes existing d.start then replaceBlock d.start d.stop (block d content) existing
  else layout.trimEnd (clean existing) ++ '\n' :: '\n' :: (block d content ++ ['\n'])

/-- Only a document that is there gets a block. -/
def embedPermissionsBlock (existing : Option Text) (permissionsContent : Text) : Option Text :=
  existing.map fun existing => embed permissionsMarkers id existing permissionsContent

def importLine : Text := lit "@.claude/agentvalet-permissions.md"

def embedInClaudeMd (existing : Option Text) (permissionsContent : Text) : Text :=
  match existing with
  | none => lit "# Agent Instructions\n\n" ++ block claudeMarkers permissionsContent ++ ['\n']
  | some existing => embed claudeMarkers (removeLine importLine true) existing permissionsContent

def stripPermissionsBlock (existing : Option Text) : Option Text :=
  existing.map fun content =>
    if !includes content permissionsMarkers.start then content
    else
      layout.trimEnd
        (collapseLineEnds
          (replaceBlock permissionsMarkers.start permissionsMarkers.stop [] content)) ++
        ['\n']

def stripClaudeMd (existing : Option Text) : Option Text :=
  existing.map fun content =>
    let content := replaceBlock claudeMarkers.start claudeMarkers.stop [] content
    let content := removeLine importLine true content
    let content := trim (collapseLineEnds content)
    if content = [] then [] else content ++ ['\n']

end AgentValet.Permissions
