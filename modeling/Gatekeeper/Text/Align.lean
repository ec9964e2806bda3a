namespace Gatekeeper.Text

def alignRight (width : Nat) (s : String) : String :=
  String.ofList (List.replicate (width - s.length) ' ') ++ s

def alignLeft (width : Nat) (s : String) : String :=
  s ++ String.ofList (List.replicate (width - s.length) ' ')

def clip (count : Nat) (s : String) : String :=
  String.ofList (s.toList.take count)

end Gatekeeper.Text
