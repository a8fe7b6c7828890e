import JsonFilter.CommandLine.Basic

namespace JsonFilter.CommandLine

def columns (rows : List (String × String)) : String :=
  let width := rows.foldl (fun n (key, _) => max n key.length) 0
  String.join (rows.map fun (key, text) =>
    "  " ++ key ++ String.ofList (List.replicate (width - key.length) ' ') ++ "  " ++ text ++ "\n")

def table (heading : String) (rows : List (String × String)) : String :=
  if rows.isEmpty then "" else "\n" ++ heading ++ ":\n" ++ columns rows

namespace Topic

def usage (t : Topic) : String :=
  let command := match t with
    | .program => []
    | t => [t.name]
  let options := if t.switches.isEmpty then [] else ["[OPTIONS]"]
  let rest := match t with
    | .program => ["<COMMAND>"]
    | t => t.operands.map Prod.fst
  String.intercalate " " (CommandLine.program :: command ++ options ++ rest)

def commandRows : Topic → List (String × String)
  | .program => commands.map fun c => (c.name, c.about)
  | _ => []

def switchRows (t : Topic) : List (String × String) :=
  t.switches.map fun s => ("-" ++ s.short.toString ++ ", --" ++ s.long, s.about)

def page (t : Topic) : String :=
  t.about ++ "\n\nUsage: " ++ t.usage ++ "\n" ++ table "Commands" t.commandRows ++
    table "Arguments" t.operands ++ table "Options" t.switchRows

end Topic

end JsonFilter.CommandLine
