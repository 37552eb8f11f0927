import SchemaGraph.Digest.Sha256
/-!
# Texts inside DOT documents

Three places take foreign text: comments, double-quoted strings and HTML-like labels. Each has its
own escaping, which keeps the text from ending the place it stands in.
-/

namespace SchemaGraph.Dot

/-- The text of one character inside an HTML-like label. -/
def escapeHtmlChar (c : Char) : List Char :=
  if c = '&' then "&amp;".toList
  else if c = '<' then "&lt;".toList
  else if c = '>' then "&gt;".toList
  else if c = '"' then "&quot;".toList
  else [c]

/-- A text inside an HTML-like label. -/
def escapeHtml (s : String) : String :=
  String.ofList (s.toList.flatMap escapeHtmlChar)

/-- The text of one character inside a double-quoted string. -/
def escapeQuotedChar (c : Char) : List Char :=
  if c = '\\' then ['\\', '\\']
  else if c = '"' then ['\\', '"']
  else [c]

/-- A text inside a double-quoted string. -/
def escapeQuoted (s : String) : String :=
  String.ofList (s.toList.flatMap escapeQuotedChar)

/-- The characters of a text inside a comment: a space parts the two characters that would end
the comment. -/
def partCommentEnd : List Char → List Char
  | '*' :: '/' :: rest => '*' :: ' ' :: '/' :: partCommentEnd rest
  | c :: rest => c :: partCommentEnd rest
  | [] => []

/-- A text inside a comment. -/
def escapeComment (s : String) : String :=
  String.ofList (partCommentEnd s.toList)

/-- A text on one line. -/
def oneLine (s : String) : String :=
  String.ofList (s.toList.map fun c => if c = '\n' then ' ' else c)

/-- A node name made from the digest of any text. -/
def stableId (name : String) : String :=
  String.ofList ('N' :: (Digest.sha256 name).take 16)

/-- A cluster name made from the digest of any text. -/
def clusterId (name : String) : String :=
  String.ofList ("cluster_".toList ++ (Digest.sha256 name).take 12)

end SchemaGraph.Dot
