import VisibleText.Code.Delimiter
import VisibleText.Text.Blank
import VisibleText.Unicode.Word

namespace VisibleText.Code

inductive Lead where
  | anywhere
  | boundary
  /-- The start of the window, or one character that can neither continue a name nor make it a
  variable or a member. -/
  | free
  | member
deriving DecidableEq, Repr

inductive Name where
  | oneOf (names : List String)
  | stem (stem : String)
deriving Repr

inductive Category where
  | messageLookup | logging | debugOutput | commandOutput | regexFunction
  | builtin | frameworkHelper | queryBuilder | validation
deriving DecidableEq, Repr

inductive Shape where
  | call (lead : Lead) (name : Name)
  | statement (keywords : List String)
deriving Repr

structure Signature where
  category : Category
  shape : Shape
deriving Repr

def after? (word : List Char) (cs : List Char) : Option (List Char) :=
  if word.isPrefixOf cs then some (cs.drop word.length) else none

def afterOpening? (cs : List Char) : Option (List Char) := after? ['('] (trimStart cs)

def isStemChar (c : Char) : Bool := ('a' ≤ c && c ≤ 'z') || c == '_'

def Name.callAt? : Name → List Char → Option (List Char)
  | .oneOf names, cs => names.findSome? fun n => after? n.toList cs >>= afterOpening?
  | .stem s, cs => do
    let rest ← after? s.toList cs
    let more := rest.dropWhile isStemChar
    if more.length < rest.length then afterOpening? more else none

def freesName (c : Char) : Bool := !(Unicode.isWord c || c == '$' || c == '>' || c == ':')

def Lead.callAt? (lead : Lead) (name : Name) (before : Option Char) (cs : List Char) :
    Option (List Char) :=
  match lead with
  | .anywhere => name.callAt? cs
  | .boundary => if Unicode.atWordBoundary before cs.head? then name.callAt? cs else none
  | .free =>
    let here := if before.isNone then name.callAt? cs else none
    here <|> match cs with
      | [] => none
      | c :: rest => if freesName c then name.callAt? rest else none
  | .member => do
    let rest ← after? ['-', '>'] cs <|> after? [':', ':'] cs
    name.callAt? (trimStart rest)

def keywordAt? (keywords : List String) (before : Option Char) (cs : List Char) :
    Option (List Char) :=
  if Unicode.atWordBoundary before cs.head? then
    keywords.findSome? fun k => do
      let rest ← after? k.toList cs
      match rest with
      | [] => none
      | c :: more => if isBlank c then some more else none
  else none

def Shape.occursAt? : Shape → Option Char → List Char → Option (List Char)
  | .call lead name => lead.callAt? name
  | .statement keywords => keywordAt? keywords

def Shape.leavesOpen : Shape → List Char → Bool
  | .call _ _, rest => (partnerAfter? .php 0x28 (utf8 rest)).isNone
  | .statement _, rest => !rest.contains ';'

/-- The rests after the occurrences of a shape, found from left to right, each search going on where
the last occurrence ended. -/
def Shape.rests (shape : Shape) (before : Option Char) (cs : List Char) : List (List Char) :=
  match cs with
  | [] => []
  | c :: more =>
    match shape.occursAt? before (c :: more) with
    | some rest =>
      let used := (c :: more).length - rest.length
      rest :: shape.rests ((c :: more)[used - 1]?) (more.drop (used - 1))
    | none => shape.rests (some c) more
termination_by cs.length
decreasing_by all_goals simp only [List.length_cons, List.length_drop]; omega

def Signature.encloses (s : Signature) (window : List Char) : Bool :=
  (s.shape.rests none window).any s.shape.leavesOpen

def messageFunctions : List String := ["__", "trans", "trans_choice"]

def builtinFunctions : List String :=
  ["function_exists", "class_exists", "method_exists", "interface_exists", "trait_exists",
    "defined", "define", "extension_loaded", "in_array", "array_key_exists", "array_search",
    "array_column", "array_filter", "array_map", "isset", "empty", "compact", "extract", "gettype",
    "get_class", "get_called_class", "get_parent_class", "is_a", "is_subclass_of",
    "property_exists", "constant", "call_user_func", "call_user_func_array", "header", "setcookie",
    "setrawcookie", "session_name", "session_id", "session_save_path", "ini_get", "ini_set",
    "ini_restore", "putenv", "getenv", "file_exists", "is_file", "is_dir", "is_readable",
    "is_writable", "filetype", "mime_content_type", "stream_context_create",
    "stream_wrapper_register", "trigger_error", "user_error", "error_reporting", "date",
    "strtotime", "strftime", "timezone_name_from_abbr", "sprintf", "vsprintf", "sscanf",
    "parse_url", "http_build_query"]

def helperFunctions : List String :=
  ["app_path", "base_path", "config_path", "database_path", "public_path", "resource_path",
    "storage_path", "asset", "secure_asset", "route", "secure_url", "url", "action", "config",
    "env", "session", "old", "request", "view", "response", "redirect", "back", "auth", "bcrypt",
    "hash", "cache", "event", "broadcast", "dispatch", "dispatch_sync", "validator",
    "class_basename", "e", "preg_replace_array", "str", "data_get", "data_set", "data_fill",
    "head", "last", "abort", "abort_if", "abort_unless", "app", "collect", "cookie", "decrypt",
    "encrypt", "method_field", "now", "optional", "policy", "resolve", "retry", "tap", "throw_if",
    "throw_unless", "today", "trait_uses_recursive", "transform", "value", "with"]

def queryMethods : List String :=
  ["select", "where", "whereIn", "whereNotIn", "whereBetween", "whereNull", "whereNotNull",
    "orderBy", "groupBy", "having", "join", "leftJoin", "rightJoin", "pluck", "value", "raw",
    "table", "format"]

def signatures : List Signature := [
  ⟨.messageLookup, .call .free (.oneOf messageFunctions)⟩,
  ⟨.messageLookup, .call .anywhere (.oneOf ["@lang"])⟩,
  ⟨.messageLookup, .call .boundary (.oneOf ["Lang::get", "Lang::choice", "Lang::has"])⟩,
  ⟨.logging, .call .boundary (.oneOf ["Log::emergency", "Log::alert", "Log::critical", "Log::error",
    "Log::warning", "Log::notice", "Log::info", "Log::debug", "Log::log"])⟩,
  ⟨.logging, .call .free (.oneOf ["logger", "error_log", "info"])⟩,
  ⟨.debugOutput, .call .free (.oneOf ["var_dump", "var_export", "dd", "dump", "print_r"])⟩,
  ⟨.debugOutput, .statement ["echo", "print"]⟩,
  ⟨.commandOutput, .call .anywhere (.oneOf ["$this->info", "$this->error", "$this->line",
    "$this->comment", "$this->warn", "$this->warning", "$this->question", "$this->alert"])⟩,
  ⟨.regexFunction, .call .boundary (.stem "preg_")⟩,
  ⟨.builtin, .call .free (.oneOf builtinFunctions)⟩,
  ⟨.frameworkHelper, .call .free (.oneOf helperFunctions)⟩,
  ⟨.queryBuilder, .call .member (.oneOf queryMethods)⟩,
  ⟨.validation, .call .member (.oneOf ["validate", "validateWithBag"])⟩]

def lookbehind : Nat := 200

def ceilBoundary (bs : Bytes) : Bytes := bs.dropWhile isContinuation

def window (masked : Bytes) (stop : Nat) : Bytes :=
  ceilBoundary ((masked.take stop).drop (stop - lookbehind))

def categoryBefore? (masked : Bytes) (stop : Nat) : Option Category :=
  let chars := (decode (window masked stop)).toList
  (signatures.find? (·.encloses chars)).map (·.category)

end VisibleText.Code
