/-
The table of known languages. Where two of them claim an extension, the one
further up has it.
-/
import LineCensus.Language.Definition

namespace LineCensus.Language

/-- An entry of the table. -/
def language (id label : String) (extensions lineComments : List String)
    (blockComments : List BlockDelimiter) : Definition :=
  { id, displayName := label, extensions, fileNames := [], grammar := { lineComments, blockComments } }

/-- An entry that claims whole file names too. -/
def Definition.named (d : Definition) (names : List String) : Definition := { d with fileNames := names }

def slashes : List String := ["//"]
def docSlashes : List String := ["//", "///", "//!"]
def hash : List String := ["#"]
def dashes : List String := ["--"]
def semicolon : List String := [";"]
def percent : List String := ["%"]
def stars : List BlockDelimiter := [⟨"/*", "*/"⟩]

/-- Languages with `//` or `/* */`. -/
def slashFamily : List Definition :=
  [ language "c" "C" ["c"] slashes stars,
    language "c-header" "C Header" ["h"] slashes stars,
    language "cpp" "C++" ["cpp", "cc", "cxx", "c++", "hpp", "hh", "hxx", "h++", "ipp"] slashes stars,
    language "csharp" "C#" ["cs"] slashes stars,
    language "go" "Go" ["go"] slashes stars,
    language "rust" "Rust" ["rs"] docSlashes stars,
    language "java" "Java" ["java"] slashes stars,
    language "javascript" "JavaScript" ["js", "mjs", "cjs", "jsx"] slashes stars,
    language "typescript" "TypeScript" ["ts", "tsx", "mts", "cts"] slashes stars,
    language "kotlin" "Kotlin" ["kt", "kts"] slashes stars,
    language "scala" "Scala" ["scala", "sc"] slashes stars,
    language "swift" "Swift" ["swift"] slashes stars,
    language "dart" "Dart" ["dart"] slashes stars,
    language "zig" "Zig" ["zig"] docSlashes [],
    language "d" "D" ["d"] slashes [⟨"/*", "*/"⟩, ⟨"/+", "+/"⟩],
    language "objective-c" "Objective-C" ["m", "mm"] slashes stars,
    (language "groovy" "Groovy" ["groovy", "gradle"] slashes stars).named ["Jenkinsfile"],
    language "protobuf" "Protocol Buffers" ["proto"] slashes stars,
    language "solidity" "Solidity" ["sol"] slashes stars,
    language "verilog" "Verilog" ["v", "sv", "svh"] slashes stars,
    language "css" "CSS" ["css"] [] stars,
    language "scss" "SCSS" ["scss", "less"] slashes stars,
    language "php" "PHP" ["php"] ["#", "//"] stars ]

/-- Languages with `#` for line comments. -/
def hashFamily : List Definition :=
  [ language "python" "Python" ["py", "pyw", "pyi"] hash [⟨"\"\"\"", "\"\"\""⟩, ⟨"'''", "'''"⟩],
    (language "ruby" "Ruby" ["rb", "rake", "gemspec"] hash [⟨"=begin", "=end"⟩]).named ["Rakefile", "Gemfile"],
    language "perl" "Perl" ["pl", "pm", "perl"] hash [⟨"=pod", "=cut"⟩, ⟨"=head1", "=cut"⟩],
    (language "shell" "Bourne Shell" ["sh", "bash", "zsh", "ksh"] hash []).named [".bashrc", ".zshrc", ".profile"],
    language "fish" "Fish" ["fish"] hash [],
    language "powershell" "PowerShell" ["ps1", "psm1", "psd1"] hash [⟨"<#", "#>"⟩],
    language "r" "R" ["r"] hash [],
    language "nim" "Nim" ["nim"] hash [⟨"#[", "]#"⟩],
    language "crystal" "Crystal" ["cr"] hash [],
    language "elixir" "Elixir" ["ex", "exs"] hash [],
    language "julia" "Julia" ["jl"] hash [⟨"#=", "=#"⟩],
    language "coffeescript" "CoffeeScript" ["coffee"] hash [⟨"###", "###"⟩],
    language "tcl" "Tcl" ["tcl"] hash [],
    language "awk" "Awk" ["awk"] hash [],
    language "yaml" "YAML" ["yml", "yaml"] hash [],
    (language "toml" "TOML" ["toml"] hash []).named ["Cargo.lock"],
    language "ini" "INI" ["ini", "cfg", "conf"] [";", "#"] [],
    (language "makefile" "Makefile" ["mk", "mak"] hash []).named ["Makefile", "makefile", "GNUmakefile"],
    (language "cmake" "CMake" ["cmake"] hash [⟨"#[[", "]]"⟩]).named ["CMakeLists.txt"],
    (language "dockerfile" "Dockerfile" ["dockerfile"] hash []).named ["Dockerfile", "Containerfile"],
    language "terraform" "Terraform" ["tf", "tfvars"] ["#", "//"] stars,
    language "nix" "Nix" ["nix"] hash stars,
    language "graphql" "GraphQL" ["graphql", "gql"] hash [] ]

/-- Languages with `--` for line comments. -/
def dashFamily : List Definition :=
  [ language "lua" "Lua" ["lua"] dashes [⟨"--[[", "]]"⟩],
    language "sql" "SQL" ["sql"] dashes stars,
    language "haskell" "Haskell" ["hs", "lhs"] dashes [⟨"\x7b-", "-\x7d"⟩],
    language "elm" "Elm" ["elm"] dashes [⟨"\x7b-", "-\x7d"⟩],
    language "vhdl" "VHDL" ["vhd", "vhdl"] dashes [],
    language "ada" "Ada" ["ada", "adb", "ads"] dashes [] ]

/-- Languages with `(* *)`. -/
def starredParenFamily : List Definition :=
  [ language "ocaml" "OCaml" ["ml", "mli"] [] [⟨"(*", "*)"⟩],
    language "fsharp" "F#" ["fs", "fsi", "fsx"] slashes [⟨"(*", "*)"⟩],
    language "pascal" "Pascal" ["pas", "dpr"] slashes [⟨"\x7b", "\x7d"⟩, ⟨"(*", "*)"⟩] ]

/-- Languages with other marks for line comments. -/
def otherFamily : List Definition :=
  [ language "lisp" "Lisp" ["lisp", "lsp", "cl", "el"] semicolon [⟨"#|", "|#"⟩],
    language "clojure" "Clojure" ["clj", "cljs", "cljc", "edn"] semicolon [],
    language "scheme" "Scheme" ["scm", "ss", "rkt"] semicolon [⟨"#|", "|#"⟩],
    language "erlang" "Erlang" ["erl", "hrl"] percent [],
    language "tex" "TeX" ["tex", "sty", "cls", "ltx"] percent [],
    language "matlab" "MATLAB" ["mat", "mlx", "oct"] percent [⟨"%\x7b", "%\x7d"⟩],
    language "fortran" "Fortran" ["f", "f90", "f95", "f03", "f08", "for", "ftn"] ["!"] [],
    language "assembly" "Assembly" ["asm", "nasm", "s"] [";", "#"] stars,
    language "batch" "Batch" ["bat", "cmd"] ["REM", "rem", "::"] [],
    (language "vim" "Vim Script" ["vim"] ["\""] []).named [".vimrc"],
    language "visual-basic" "Visual Basic" ["vb", "vbs", "bas"] ["'", "REM"] [] ]

/-- Markup, data and plain text. -/
def markup : List Definition :=
  [ language "html" "HTML" ["html", "htm", "xhtml"] [] [⟨"<!--", "-->"⟩],
    language "xml" "XML" ["xml", "xsl", "xslt", "xsd", "svg"] [] [⟨"<!--", "-->"⟩],
    language "vue" "Vue" ["vue"] slashes [⟨"<!--", "-->"⟩, ⟨"/*", "*/"⟩],
    language "markdown" "Markdown" ["md", "markdown"] [] [],
    language "json" "JSON" ["json"] [] [],
    language "plain-text" "Plain Text" ["txt", "text"] [] [] ]

/-- All known languages. -/
def builtin : List Definition :=
  slashFamily ++ hashFamily ++ dashFamily ++ starredParenFamily ++ otherFamily ++ markup

end LineCensus.Language
