import Lalr.Grammar.Basic
import Lalr.Text.LowerCase

set_option autoImplicit false

/-!
The keywords of OneScript. Each has an English name, which is also the name of its
terminal, and a Russian spelling; case does not matter.
-/

namespace Lalr.OneScript

/-- The English and the Russian spelling of every keyword. -/
def keywordPairs : List (String × String) :=
  [("Var", "Перем"),
    ("Val", "Знач"),
    ("Export", "Экспорт"),
    ("Procedure", "Процедура"),
    ("EndProcedure", "КонецПроцедуры"),
    ("Function", "Функция"),
    ("EndFunction", "КонецФункции"),
    ("If", "Если"),
    ("Then", "Тогда"),
    ("ElsIf", "ИначеЕсли"),
    ("Else", "Иначе"),
    ("EndIf", "КонецЕсли"),
    ("While", "Пока"),
    ("For", "Для"),
    ("Each", "Каждого"),
    ("In", "Из"),
    ("To", "По"),
    ("Do", "Цикл"),
    ("EndDo", "КонецЦикла"),
    ("Try", "Попытка"),
    ("Except", "Исключение"),
    ("EndTry", "КонецПопытки"),
    ("Raise", "ВызватьИсключение"),
    ("Return", "Возврат"),
    ("Break", "Прервать"),
    ("Continue", "Продолжить"),
    ("AddHandler", "ДобавитьОбработчик"),
    ("RemoveHandler", "УдалитьОбработчик"),
    ("New", "Новый"),
    ("And", "И"),
    ("Or", "Или"),
    ("Not", "Не"),
    ("True", "Истина"),
    ("False", "Ложь"),
    ("Undefined", "Неопределено"),
    ("Null", "Null")]

/-- The keywords with their spellings; a Russian spelling that is the English one is
listed once. -/
def keywords : List Keyword :=
  keywordPairs.map fun (english, russian) =>
    if Text.lowerCase english = Text.lowerCase russian then ⟨english, [english]⟩
    else ⟨english, [english, russian]⟩

/-- The keyword a word is a spelling of. -/
def canonicalKeyword? (word : String) : Option String :=
  let form := Text.lowerCase word
  (keywordPairs.find? fun (english, russian) =>
    Text.lowerCase english = form || Text.lowerCase russian = form).map Prod.fst

end Lalr.OneScript
