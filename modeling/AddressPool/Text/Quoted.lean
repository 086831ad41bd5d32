import AddressPool.Text.Hex
import AddressPool.Text.Printable

/-! Text shown inside double quotes. The quote, the backslash and four controls have
short escapes; any other character that does not show by itself is written by its
number. -/
namespace AddressPool.Quoted

def escape (c : Char) : String :=
  if c = '"' then "\\\""
  else if c = '\\' then "\\\\"
  else if c = '\n' then "\\n"
  else if c = '\r' then "\\r"
  else if c = '\t' then "\\t"
  else if c.toNat = 0 then "\\0"
  else if Printable.isPrintable c then String.singleton c
  else "\\u\x7b" ++ Hex.ofNat c.toNat ++ "\x7d"

def quote (text : String) : String :=
  "\"" ++ text.toList.foldl (fun shown c => shown ++ escape c) "" ++ "\""

end AddressPool.Quoted
