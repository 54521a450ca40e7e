/-!
Texts that the commands print or write: the help, the description of a new project, and scripts that
complete commands in a shell.
-/
namespace Stratus.Wording

def linesText (lines : List String) : String := String.join (lines.map (· ++ "\n"))

def help : List String := [
  "\nCloud CLI - Infrastructure Management Tool\n",
  "USAGE:",
  "  cloud [OPTIONS] COMMAND [ARGS]\n",
  "COMMANDS:",
  "  convert   Convert .cloud configuration to standard infrastructure code",
  "  plan      Show execution plan for .cloud configuration",
  "  apply     Apply .cloud configuration to AWS infrastructure",
  "  destroy   Destroy all infrastructure defined in .cloud file",
  "  help      Display this help message\n",
  "COMMON OPTIONS:",
  "  --iac-path=PATH    Path to generated IAC directory (default: ./IaC)",
  "  --auto-approve     Skip interactive approval (available for apply/destroy)",
  "\n",
  "EXAMPLES:",
  "  cloud convert ./project",
  "  cloud plan ./project --iac-path=./IaC",
  "  cloud apply ./project --iac-path=./infrastructure --auto-approve",
  "  cloud destroy ./project --auto-approve",
  "\n",
  "Run 'cloud COMMAND --help' for more information about a command"]

def template : String := linesText [
  "# Example .cloud configuration",
  "service \"example\" \x7b",
  "  type = \"application\"",
  "  ",
  "  infrastructure \x7b",
  "    compute = [",
  "      \x7b",
  "        type = Instance",
  "        name = \"web_server\"",
  "        size = \"t2.micro\"",
  "      \x7d",
  "    ]",
  "  \x7d",
  "  ",
  "  configuration \x7b",
  "    packages = [\"nginx\"]",
  "    services = \x7b",
  "      running = [\"nginx\"]",
  "      enabled = [\"nginx\"]",
  "    \x7d",
  "  \x7d",
  "  ",
  "  containers = [",
  "    \x7b",
  "      name = \"web\"",
  "      image = \"nginx:1.21\"",
  "      ports = [80]",
  "      health_check = \x7b",
  "        http_get = \x7b",
  "          path = \"/\"",
  "          port = 80",
  "        \x7d",
  "      \x7d",
  "    \x7d",
  "  ]",
  "\x7d"]

def bashCompletion : String := linesText [
  "",
  "_cloud_completion() \x7b",
  "    local IFS=$'",
  "'",
  "    local response",
  "",
  "    response=$(env COMP_WORDS=\"$\x7bCOMP_WORDS[*]\x7d\" COMP_CWORD=$COMP_CWORD " ++
    "_CLOUD_COMPLETE=bash_complete $1)",
  "",
  "    for completion in $response; do",
  "        IFS=',' read type value <<< \"$completion\"",
  "        ",
  "        if [[ $type == 'dir' ]]; then",
  "            COMPREPLY=()",
  "            compopt -o dirnames",
  "        elif [[ $type == 'file' ]]; then",
  "            COMPREPLY=()",
  "            compopt -o default",
  "        else",
  "            COMPREPLY+=($value)",
  "        fi",
  "    done",
  "",
  "    return 0",
  "\x7d",
  "",
  "complete -F _cloud_completion cloud"]

def zshCompletion : String := linesText [
  "",
  "#compdef cloud",
  "",
  "_cloud() \x7b",
  "    local -a completions",
  "    local -a completions_with_descriptions",
  "    local -a response",
  "    ",
  "    response=(\"$\x7b(@f)$(env COMP_WORDS=\"$\x7bwords[*]\x7d\" COMP_CWORD=$((CURRENT-1)) " ++
    "_CLOUD_COMPLETE=zsh_complete cloud)\x7d\")",
  "",
  "    for type message in $\x7b(ps:",
  ":)response\x7d; do",
  "        if [[ $type == 'dir' ]]; then",
  "            _path_files -/",
  "        elif [[ $type == 'file' ]]; then",
  "            _path_files -f",
  "        else",
  "            completions+=( \"$\x7bmessage\x7d\" )",
  "        fi",
  "    done",
  "",
  "    if [ -n \"$completions\" ]; then",
  "        _describe -t cloud \"cloud commands\" completions",
  "    fi",
  "\x7d",
  "",
  "compdef _cloud cloud"]

def started : List String := [
  "\nCreated:", "  • IaC/", "  • service.cloud", "\nNext steps:",
  "1. Edit service.cloud to define your infrastructure",
  "2. Run 'cloud validate' to check your configuration",
  "3. Run 'cloud plan' to see what will be created"]

def conversionWarning : String :=
  "\nConverting will:\n" ++
  "1. Overwrite all existing content in the IaC directory\n" ++
  "2. Make the 'cloud destroy' command unable to destroy resources that were previously deployed\n" ++
  "\nAny deployed resources not captured in the new IaC files will need to be manually tracked and destroyed."

end Stratus.Wording
