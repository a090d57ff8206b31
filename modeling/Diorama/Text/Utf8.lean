namespace Diorama.Text

def bytes (s : String) : List UInt8 := s.toUTF8.toList

def decode? (bs : List UInt8) : Option String := String.fromUTF8? ⟨bs.toArray⟩

-- The text that some bytes spell. Bytes that spell none give the replacement character.
def decode (bs : List UInt8) : String := (decode? bs).getD "�"

end Diorama.Text
