import FeatureFile.Dialect.Basic

/-!
# The table of dialects

The supported languages in the alphabetical order of their names, with their keywords in the
order in which they are tried.
-/

namespace FeatureFile.Dialect

/-- Keywords as texts. -/
def words (keywords : List String) : List Text := keywords.map String.toList

/-- English, the language of a source that names none. -/
def english : Dialect :=
  { name := "en".toList
    features := words ["Feature", "Business Need", "Ability"]
    backgrounds := words ["Background"]
    scenarios := words ["Scenario"]
    outlines := words ["Scenario Outline", "Scenario Template"]
    examples := words ["Examples", "Scenarios"]
    givens := words ["* ", "Given "]
    whens := words ["* ", "When "]
    thens := words ["* ", "Then "]
    ands := words ["* ", "And "]
    buts := words ["* ", "But "] }

/-- Every supported dialect. -/
def table : List Dialect :=
  [
    { name := "af".toList
      features := words ["Funksie", "Besigheid Behoefte", "Vermoë"]
      backgrounds := words ["Agtergrond"]
      scenarios := words ["Situasie"]
      outlines := words ["Situasie Uiteensetting"]
      examples := words ["Voorbeelde"]
      givens := words ["* ", "Gegewe "]
      whens := words ["* ", "Wanneer "]
      thens := words ["* ", "Dan "]
      ands := words ["* ", "En "]
      buts := words ["* ", "Maar "] },
    { name := "am".toList
      features := words ["Ֆունկցիոնալություն", "Հատկություն"]
      backgrounds := words ["Կոնտեքստ"]
      scenarios := words ["Սցենար"]
      outlines := words ["Սցենարի կառուցվացքը"]
      examples := words ["Օրինակներ"]
      givens := words ["* ", "Դիցուք "]
      whens := words ["* ", "Եթե ", "Երբ "]
      thens := words ["* ", "Ապա "]
      ands := words ["* ", "Եվ "]
      buts := words ["* ", "Բայց "] },
    { name := "an".toList
      features := words ["Caracteristica"]
      backgrounds := words ["Antecedents"]
      scenarios := words ["Caso"]
      outlines := words ["Esquema del caso"]
      examples := words ["Eixemplos"]
      givens := words ["* ", "Dau ", "Dada ", "Daus ", "Dadas "]
      whens := words ["* ", "Cuan "]
      thens := words ["* ", "Alavez ", "Allora ", "Antonces "]
      ands := words ["* ", "Y ", "E "]
      buts := words ["* ", "Pero "] },
    { name := "ar".toList
      features := words ["خاصية"]
      backgrounds := words ["الخلفية"]
      scenarios := words ["سيناريو"]
      outlines := words ["سيناريو مخطط"]
      examples := words ["امثلة"]
      givens := words ["* ", "بفرض "]
      whens := words ["* ", "متى ", "عندما "]
      thens := words ["* ", "اذاً ", "ثم "]
      ands := words ["* ", "و "]
      buts := words ["* ", "لكن "] },
    { name := "ast".toList
      features := words ["Carauterística"]
      backgrounds := words ["Antecedentes"]
      scenarios := words ["Casu"]
      outlines := words ["Esbozu del casu"]
      examples := words ["Exemplos"]
      givens := words ["* ", "Dáu ", "Dada ", "Daos ", "Daes "]
      whens := words ["* ", "Cuando "]
      thens := words ["* ", "Entós "]
      ands := words ["* ", "Y ", "Ya "]
      buts := words ["* ", "Peru "] },
    { name := "az".toList
      features := words ["Özəllik"]
      backgrounds := words ["Keçmiş", "Kontekst"]
      scenarios := words ["Ssenari"]
      outlines := words ["Ssenarinin strukturu"]
      examples := words ["Nümunələr"]
      givens := words ["* ", "Tutaq ki ", "Verilir "]
      whens := words ["* ", "Əgər ", "Nə vaxt ki "]
      thens := words ["* ", "O halda "]
      ands := words ["* ", "Və ", "Həm "]
      buts := words ["* ", "Amma ", "Ancaq "] },
    { name := "bg".toList
      features := words ["Функционалност"]
      backgrounds := words ["Предистория"]
      scenarios := words ["Сценарий"]
      outlines := words ["Рамка на сценарий"]
      examples := words ["Примери"]
      givens := words ["* ", "Дадено "]
      whens := words ["* ", "Когато "]
      thens := words ["* ", "То "]
      ands := words ["* ", "И "]
      buts := words ["* ", "Но "] },
    { name := "bm".toList
      features := words ["Fungsi"]
      backgrounds := words ["Latar Belakang"]
      scenarios := words ["Senario", "Situasi", "Keadaan"]
      outlines := words 
        ["Kerangka Senario", "Kerangka Situasi", "Kerangka Keadaan", "Garis Panduan Senario"]
      examples := words ["Contoh"]
      givens := words ["* ", "Diberi ", "Bagi "]
      whens := words ["* ", "Apabila "]
      thens := words ["* ", "Maka ", "Kemudian "]
      ands := words ["* ", "Dan "]
      buts := words ["* ", "Tetapi ", "Tapi "] },
    { name := "bs".toList
      features := words ["Karakteristika"]
      backgrounds := words ["Pozadina"]
      scenarios := words ["Scenariju", "Scenario"]
      outlines := words ["Scenariju-obris", "Scenario-outline"]
      examples := words ["Primjeri"]
      givens := words ["* ", "Dato "]
      whens := words ["* ", "Kada "]
      thens := words ["* ", "Zatim "]
      ands := words ["* ", "I ", "A "]
      buts := words ["* ", "Ali "] },
    { name := "ca".toList
      features := words ["Característica", "Funcionalitat"]
      backgrounds := words ["Rerefons", "Antecedents"]
      scenarios := words ["Escenari"]
      outlines := words ["Esquema de l'escenari"]
      examples := words ["Exemples"]
      givens := words ["* ", "Donat ", "Donada ", "Atès ", "Atesa "]
      whens := words ["* ", "Quan "]
      thens := words ["* ", "Aleshores ", "Cal "]
      ands := words ["* ", "I "]
      buts := words ["* ", "Però "] },
    { name := "cs".toList
      features := words ["Požadavek"]
      backgrounds := words ["Pozadí", "Kontext"]
      scenarios := words ["Scénář"]
      outlines := words ["Náčrt Scénáře", "Osnova scénáře"]
      examples := words ["Příklady"]
      givens := words ["* ", "Pokud ", "Za předpokladu "]
      whens := words ["* ", "Když "]
      thens := words ["* ", "Pak "]
      ands := words ["* ", "A také ", "A "]
      buts := words ["* ", "Ale "] },
    { name := "cy-GB".toList
      features := words ["Arwedd"]
      backgrounds := words ["Cefndir"]
      scenarios := words ["Scenario"]
      outlines := words ["Scenario Amlinellol"]
      examples := words ["Enghreifftiau"]
      givens := words ["* ", "Anrhegedig a "]
      whens := words ["* ", "Pryd "]
      thens := words ["* ", "Yna "]
      ands := words ["* ", "A "]
      buts := words ["* ", "Ond "] },
    { name := "da".toList
      features := words ["Egenskab"]
      backgrounds := words ["Baggrund"]
      scenarios := words ["Scenarie"]
      outlines := words ["Abstrakt Scenario"]
      examples := words ["Eksempler"]
      givens := words ["* ", "Givet "]
      whens := words ["* ", "Når "]
      thens := words ["* ", "Så "]
      ands := words ["* ", "Og "]
      buts := words ["* ", "Men "] },
    { name := "de".toList
      features := words ["Funktionalität"]
      backgrounds := words ["Grundlage"]
      scenarios := words ["Szenario"]
      outlines := words ["Szenariogrundriss"]
      examples := words ["Beispiele"]
      givens := words ["* ", "Angenommen ", "Gegeben sei ", "Gegeben seien "]
      whens := words ["* ", "Wenn "]
      thens := words ["* ", "Dann "]
      ands := words ["* ", "Und "]
      buts := words ["* ", "Aber "] },
    { name := "el".toList
      features := words ["Δυνατότητα", "Λειτουργία"]
      backgrounds := words ["Υπόβαθρο"]
      scenarios := words ["Σενάριο"]
      outlines := words ["Περιγραφή Σεναρίου", "Περίγραμμα Σεναρίου"]
      examples := words ["Παραδείγματα", "Σενάρια"]
      givens := words ["* ", "Δεδομένου "]
      whens := words ["* ", "Όταν "]
      thens := words ["* ", "Τότε "]
      ands := words ["* ", "Και "]
      buts := words ["* ", "Αλλά "] },
    { name := "em".toList
      features := words ["📚"]
      backgrounds := words ["💤"]
      scenarios := words ["📕"]
      outlines := words ["📖"]
      examples := words ["📓"]
      givens := words ["* ", "😐"]
      whens := words ["* ", "🎬"]
      thens := words ["* ", "🙏"]
      ands := words ["* ", "😂"]
      buts := words ["* ", "😔"] },
    english,
    { name := "en-Scouse".toList
      features := words ["Feature"]
      backgrounds := words ["Dis is what went down"]
      scenarios := words ["The thing of it is"]
      outlines := words ["Wharrimean is"]
      examples := words ["Examples"]
      givens := words ["* ", "Givun ", "Youse know when youse got "]
      whens := words ["* ", "Wun ", "Youse know like when "]
      thens := words ["* ", "Dun ", "Den youse gotta "]
      ands := words ["* ", "An "]
      buts := words ["* ", "Buh "] },
    { name := "en-au".toList
      features := words ["Pretty much"]
      backgrounds := words ["First off"]
      scenarios := words ["Awww, look mate"]
      outlines := words ["Reckon it's like"]
      examples := words ["You'll wanna"]
      givens := words ["* ", "Y'know "]
      whens := words ["* ", "It's just unbelievable "]
      thens := words ["* ", "But at the end of the day I reckon "]
      ands := words ["* ", "Too right "]
      buts := words ["* ", "Yeah nah "] },
    { name := "en-lol".toList
      features := words ["OH HAI"]
      backgrounds := words ["B4"]
      scenarios := words ["MISHUN"]
      outlines := words ["MISHUN SRSLY"]
      examples := words ["EXAMPLZ"]
      givens := words ["* ", "I CAN HAZ "]
      whens := words ["* ", "WEN "]
      thens := words ["* ", "DEN "]
      ands := words ["* ", "AN "]
      buts := words ["* ", "BUT "] },
    { name := "en-old".toList
      features := words ["Hwaet", "Hwæt"]
      backgrounds := words ["Aer", "Ær"]
      scenarios := words ["Swa"]
      outlines := words ["Swa hwaer swa", "Swa hwær swa"]
      examples := words ["Se the", "Se þe", "Se ðe"]
      givens := words ["* ", "Thurh ", "Þurh ", "Ðurh "]
      whens := words ["* ", "Tha ", "Þa ", "Ða "]
      thens := words ["* ", "Tha ", "Þa ", "Ða ", "Tha the ", "Þa þe ", "Ða ðe "]
      ands := words ["* ", "Ond ", "7 "]
      buts := words ["* ", "Ac "] },
    { name := "en-pirate".toList
      features := words ["Ahoy matey!"]
      backgrounds := words ["Yo-ho-ho"]
      scenarios := words ["Heave to"]
      outlines := words ["Shiver me timbers"]
      examples := words ["Dead men tell no tales"]
      givens := words ["* ", "Gangway! "]
      whens := words ["* ", "Blimey! "]
      thens := words ["* ", "Let go and haul "]
      ands := words ["* ", "Aye "]
      buts := words ["* ", "Avast! "] },
    { name := "eo".toList
      features := words ["Trajto"]
      backgrounds := words ["Fono"]
      scenarios := words ["Scenaro", "Kazo"]
      outlines := words ["Konturo de la scenaro", "Skizo", "Kazo-skizo"]
      examples := words ["Ekzemploj"]
      givens := words ["* ", "Donitaĵo ", "Komence "]
      whens := words ["* ", "Se "]
      thens := words ["* ", "Do "]
      ands := words ["* ", "Kaj "]
      buts := words ["* ", "Sed "] },
    { name := "es".toList
      features := words ["Característica"]
      backgrounds := words ["Antecedentes"]
      scenarios := words ["Escenario"]
      outlines := words ["Esquema del escenario"]
      examples := words ["Ejemplos"]
      givens := words ["* ", "Dado ", "Dada ", "Dados ", "Dadas "]
      whens := words ["* ", "Cuando "]
      thens := words ["* ", "Entonces "]
      ands := words ["* ", "Y ", "E "]
      buts := words ["* ", "Pero "] },
    { name := "et".toList
      features := words ["Omadus"]
      backgrounds := words ["Taust"]
      scenarios := words ["Stsenaarium"]
      outlines := words ["Raamstsenaarium"]
      examples := words ["Juhtumid"]
      givens := words ["* ", "Eeldades "]
      whens := words ["* ", "Kui "]
      thens := words ["* ", "Siis "]
      ands := words ["* ", "Ja "]
      buts := words ["* ", "Kuid "] },
    { name := "fa".toList
      features := words ["وِیژگی"]
      backgrounds := words ["زمینه"]
      scenarios := words ["سناریو"]
      outlines := words ["الگوی سناریو"]
      examples := words ["نمونه ها"]
      givens := words ["* ", "با فرض "]
      whens := words ["* ", "هنگامی "]
      thens := words ["* ", "آنگاه "]
      ands := words ["* ", "و "]
      buts := words ["* ", "اما "] },
    { name := "fi".toList
      features := words ["Ominaisuus"]
      backgrounds := words ["Tausta"]
      scenarios := words ["Tapaus"]
      outlines := words ["Tapausaihio"]
      examples := words ["Tapaukset"]
      givens := words ["* ", "Oletetaan "]
      whens := words ["* ", "Kun "]
      thens := words ["* ", "Niin "]
      ands := words ["* ", "Ja "]
      buts := words ["* ", "Mutta "] },
    { name := "fr".toList
      features := words ["Fonctionnalité"]
      backgrounds := words ["Contexte"]
      scenarios := words ["Scénario"]
      outlines := words ["Plan du scénario", "Plan du Scénario"]
      examples := words ["Exemples"]
      givens := words 
        ["* ", "Soit ", "Etant donné que ", "Etant donné qu'", "Etant donné ", "Etant donnée ",
        "Etant donnés ", "Etant données ", "Étant donné que ", "Étant donné qu'",
        "Étant donné ", "Étant donnée ", "Étant donnés ", "Étant données "]
      whens := words ["* ", "Quand ", "Lorsque ", "Lorsqu'"]
      thens := words ["* ", "Alors "]
      ands := words ["* ", "Et que ", "Et qu'", "Et "]
      buts := words ["* ", "Mais que ", "Mais qu'", "Mais "] },
    { name := "ga".toList
      features := words ["Gné"]
      backgrounds := words ["Cúlra"]
      scenarios := words ["Cás"]
      outlines := words ["Cás Achomair"]
      examples := words ["Samplaí"]
      givens := words 
        ["* ", "Cuir i gcás go", "Cuir i gcás nach", "Cuir i gcás gur", "Cuir i gcás nár"]
      whens := words ["* ", "Nuair a", "Nuair nach", "Nuair ba", "Nuair nár"]
      thens := words ["* ", "Ansin"]
      ands := words ["* ", "Agus"]
      buts := words ["* ", "Ach"] },
    { name := "gj".toList
      features := words ["લક્ષણ", "વ્યાપાર જરૂર", "ક્ષમતા"]
      backgrounds := words ["બેકગ્રાઉન્ડ"]
      scenarios := words ["સ્થિતિ"]
      outlines := words ["પરિદ્દશ્ય રૂપરેખા", "પરિદ્દશ્ય ઢાંચો"]
      examples := words ["ઉદાહરણો"]
      givens := words ["* ", "આપેલ છે "]
      whens := words ["* ", "ક્યારે "]
      thens := words ["* ", "પછી "]
      ands := words ["* ", "અને "]
      buts := words ["* ", "પણ "] },
    { name := "gl".toList
      features := words ["Característica"]
      backgrounds := words ["Contexto"]
      scenarios := words ["Escenario"]
      outlines := words ["Esbozo do escenario"]
      examples := words ["Exemplos"]
      givens := words ["* ", "Dado ", "Dada ", "Dados ", "Dadas "]
      whens := words ["* ", "Cando "]
      thens := words ["* ", "Entón ", "Logo "]
      ands := words ["* ", "E "]
      buts := words ["* ", "Mais ", "Pero "] },
    { name := "he".toList
      features := words ["תכונה"]
      backgrounds := words ["רקע"]
      scenarios := words ["תרחיש"]
      outlines := words ["תבנית תרחיש"]
      examples := words ["דוגמאות"]
      givens := words ["* ", "בהינתן "]
      whens := words ["* ", "כאשר "]
      thens := words ["* ", "אז ", "אזי "]
      ands := words ["* ", "וגם "]
      buts := words ["* ", "אבל "] },
    { name := "hi".toList
      features := words ["रूप लेख"]
      backgrounds := words ["पृष्ठभूमि"]
      scenarios := words ["परिदृश्य"]
      outlines := words ["परिदृश्य रूपरेखा"]
      examples := words ["उदाहरण"]
      givens := words ["* ", "अगर ", "यदि ", "चूंकि "]
      whens := words ["* ", "जब ", "कदा "]
      thens := words ["* ", "तब ", "तदा "]
      ands := words ["* ", "और ", "तथा "]
      buts := words ["* ", "पर ", "परन्तु ", "किन्तु "] },
    { name := "hr".toList
      features := words ["Osobina", "Mogućnost", "Mogucnost"]
      backgrounds := words ["Pozadina"]
      scenarios := words ["Scenarij"]
      outlines := words ["Skica", "Koncept"]
      examples := words ["Primjeri", "Scenariji"]
      givens := words ["* ", "Zadan ", "Zadani ", "Zadano "]
      whens := words ["* ", "Kada ", "Kad "]
      thens := words ["* ", "Onda "]
      ands := words ["* ", "I "]
      buts := words ["* ", "Ali "] },
    { name := "ht".toList
      features := words ["Karakteristik", "Mak", "Fonksyonalite"]
      backgrounds := words ["Kontèks", "Istorik"]
      scenarios := words ["Senaryo"]
      outlines := words 
        ["Plan senaryo", "Plan Senaryo", "Senaryo deskripsyon", "Senaryo Deskripsyon",
        "Dyagram senaryo", "Dyagram Senaryo"]
      examples := words ["Egzanp"]
      givens := words ["* ", "Sipoze ", "Sipoze ke ", "Sipoze Ke "]
      whens := words ["* ", "Lè ", "Le "]
      thens := words ["* ", "Lè sa a ", "Le sa a "]
      ands := words ["* ", "Ak ", "Epi ", "E "]
      buts := words ["* ", "Men "] },
    { name := "hu".toList
      features := words ["Jellemző"]
      backgrounds := words ["Háttér"]
      scenarios := words ["Forgatókönyv"]
      outlines := words ["Forgatókönyv vázlat"]
      examples := words ["Példák"]
      givens := words ["* ", "Amennyiben ", "Adott "]
      whens := words ["* ", "Majd ", "Ha ", "Amikor "]
      thens := words ["* ", "Akkor "]
      ands := words ["* ", "És "]
      buts := words ["* ", "De "] },
    { name := "id".toList
      features := words ["Fitur"]
      backgrounds := words ["Dasar"]
      scenarios := words ["Skenario"]
      outlines := words ["Skenario konsep"]
      examples := words ["Contoh"]
      givens := words ["* ", "Dengan "]
      whens := words ["* ", "Ketika "]
      thens := words ["* ", "Maka "]
      ands := words ["* ", "Dan "]
      buts := words ["* ", "Tapi "] },
    { name := "is".toList
      features := words ["Eiginleiki"]
      backgrounds := words ["Bakgrunnur"]
      scenarios := words ["Atburðarás"]
      outlines := words ["Lýsing Atburðarásar", "Lýsing Dæma"]
      examples := words ["Dæmi", "Atburðarásir"]
      givens := words ["* ", "Ef "]
      whens := words ["* ", "Þegar "]
      thens := words ["* ", "Þá "]
      ands := words ["* ", "Og "]
      buts := words ["* ", "En "] },
    { name := "it".toList
      features := words ["Funzionalità"]
      backgrounds := words ["Contesto"]
      scenarios := words ["Scenario"]
      outlines := words ["Schema dello scenario"]
      examples := words ["Esempi"]
      givens := words ["* ", "Dato ", "Data ", "Dati ", "Date "]
      whens := words ["* ", "Quando "]
      thens := words ["* ", "Allora "]
      ands := words ["* ", "E "]
      buts := words ["* ", "Ma "] },
    { name := "ja".toList
      features := words ["フィーチャ", "機能"]
      backgrounds := words ["背景"]
      scenarios := words ["シナリオ"]
      outlines := words ["シナリオアウトライン", "シナリオテンプレート", "テンプレ", "シナリオテンプレ"]
      examples := words ["例", "サンプル"]
      givens := words ["* ", "前提"]
      whens := words ["* ", "もし"]
      thens := words ["* ", "ならば"]
      ands := words ["* ", "かつ"]
      buts := words ["* ", "しかし", "但し", "ただし"] },
    { name := "jv".toList
      features := words ["Fitur"]
      backgrounds := words ["Dasar"]
      scenarios := words ["Skenario"]
      outlines := words ["Konsep skenario"]
      examples := words ["Conto", "Contone"]
      givens := words ["* ", "Nalika ", "Nalikaning "]
      whens := words ["* ", "Manawa ", "Menawa "]
      thens := words ["* ", "Njuk ", "Banjur "]
      ands := words ["* ", "Lan "]
      buts := words ["* ", "Tapi ", "Nanging ", "Ananging "] },
    { name := "ka".toList
      features := words ["თვისება"]
      backgrounds := words ["კონტექსტი"]
      scenarios := words ["სცენარის"]
      outlines := words ["სცენარის ნიმუში"]
      examples := words ["მაგალითები"]
      givens := words ["* ", "მოცემული"]
      whens := words ["* ", "როდესაც"]
      thens := words ["* ", "მაშინ"]
      ands := words ["* ", "და"]
      buts := words ["* ", "მაგ­რამ"] },
    { name := "kn".toList
      features := words ["ಹೆಚ್ಚಳ"]
      backgrounds := words ["ಹಿನ್ನೆಲೆ"]
      scenarios := words ["ಕಥಾಸಾರಾಂಶ"]
      outlines := words ["ವಿವರಣೆ"]
      examples := words ["ಉದಾಹರಣೆಗಳು"]
      givens := words ["* ", "ನೀಡಿದ "]
      whens := words ["* ", "ಸ್ಥಿತಿಯನ್ನು "]
      thens := words ["* ", "ನಂತರ "]
      ands := words ["* ", "ಮತ್ತು "]
      buts := words ["* ", "ಆದರೆ "] },
    { name := "ko".toList
      features := words ["기능"]
      backgrounds := words ["배경"]
      scenarios := words ["시나리오"]
      outlines := words ["시나리오 개요"]
      examples := words ["예"]
      givens := words ["* ", "조건", "먼저"]
      whens := words ["* ", "만일", "만약"]
      thens := words ["* ", "그러면"]
      ands := words ["* ", "그리고"]
      buts := words ["* ", "하지만", "단"] },
    { name := "lt".toList
      features := words ["Savybė"]
      backgrounds := words ["Kontekstas"]
      scenarios := words ["Scenarijus"]
      outlines := words ["Scenarijaus šablonas"]
      examples := words ["Pavyzdžiai", "Scenarijai", "Variantai"]
      givens := words ["* ", "Duota "]
      whens := words ["* ", "Kai "]
      thens := words ["* ", "Tada "]
      ands := words ["* ", "Ir "]
      buts := words ["* ", "Bet "] },
    { name := "lu".toList
      features := words ["Funktionalitéit"]
      backgrounds := words ["Hannergrond"]
      scenarios := words ["Szenario"]
      outlines := words ["Plang vum Szenario"]
      examples := words ["Beispiller"]
      givens := words ["* ", "ugeholl "]
      whens := words ["* ", "wann "]
      thens := words ["* ", "dann "]
      ands := words ["* ", "an ", "a "]
      buts := words ["* ", "awer ", "mä "] },
    { name := "lv".toList
      features := words ["Funkcionalitāte", "Fīča"]
      backgrounds := words ["Konteksts", "Situācija"]
      scenarios := words ["Scenārijs"]
      outlines := words ["Scenārijs pēc parauga"]
      examples := words ["Piemēri", "Paraugs"]
      givens := words ["* ", "Kad "]
      whens := words ["* ", "Ja "]
      thens := words ["* ", "Tad "]
      ands := words ["* ", "Un "]
      buts := words ["* ", "Bet "] },
    { name := "mk-Cyrl".toList
      features := words ["Функционалност", "Бизнис потреба", "Можност"]
      backgrounds := words ["Контекст", "Содржина"]
      scenarios := words ["Сценарио", "На пример"]
      outlines := words ["Преглед на сценарија", "Скица", "Концепт"]
      examples := words ["Примери", "Сценарија"]
      givens := words ["* ", "Дадено ", "Дадена "]
      whens := words ["* ", "Кога "]
      thens := words ["* ", "Тогаш "]
      ands := words ["* ", "И "]
      buts := words ["* ", "Но "] },
    { name := "mk-Latn".toList
      features := words ["Funkcionalnost", "Biznis potreba", "Mozhnost"]
      backgrounds := words ["Kontekst", "Sodrzhina"]
      scenarios := words ["Scenario", "Na primer"]
      outlines := words ["Pregled na scenarija", "Skica", "Koncept"]
      examples := words ["Primeri", "Scenaria"]
      givens := words ["* ", "Dadeno ", "Dadena "]
      whens := words ["* ", "Koga "]
      thens := words ["* ", "Togash "]
      ands := words ["* ", "I "]
      buts := words ["* ", "No "] },
    { name := "mn".toList
      features := words ["Функц", "Функционал"]
      backgrounds := words ["Агуулга"]
      scenarios := words ["Сценар"]
      outlines := words ["Сценарын төлөвлөгөө"]
      examples := words ["Тухайлбал"]
      givens := words ["* ", "Өгөгдсөн нь ", "Анх "]
      whens := words ["* ", "Хэрэв "]
      thens := words ["* ", "Тэгэхэд ", "Үүний дараа "]
      ands := words ["* ", "Мөн ", "Тэгээд "]
      buts := words ["* ", "Гэхдээ ", "Харин "] },
    { name := "nl".toList
      features := words ["Functionaliteit"]
      backgrounds := words ["Achtergrond"]
      scenarios := words ["Scenario"]
      outlines := words ["Abstract Scenario"]
      examples := words ["Voorbeelden"]
      givens := words ["* ", "Gegeven ", "Stel "]
      whens := words ["* ", "Als ", "Wanneer "]
      thens := words ["* ", "Dan "]
      ands := words ["* ", "En "]
      buts := words ["* ", "Maar "] },
    { name := "no".toList
      features := words ["Egenskap"]
      backgrounds := words ["Bakgrunn"]
      scenarios := words ["Scenario"]
      outlines := words ["Scenariomal", "Abstrakt Scenario"]
      examples := words ["Eksempler"]
      givens := words ["* ", "Gitt "]
      whens := words ["* ", "Når "]
      thens := words ["* ", "Så "]
      ands := words ["* ", "Og "]
      buts := words ["* ", "Men "] },
    { name := "pa".toList
      features := words ["ਖਾਸੀਅਤ", "ਮੁਹਾਂਦਰਾ", "ਨਕਸ਼ ਨੁਹਾਰ"]
      backgrounds := words ["ਪਿਛੋਕੜ"]
      scenarios := words ["ਪਟਕਥਾ"]
      outlines := words ["ਪਟਕਥਾ ਢਾਂਚਾ", "ਪਟਕਥਾ ਰੂਪ ਰੇਖਾ"]
      examples := words ["ਉਦਾਹਰਨਾਂ"]
      givens := words ["* ", "ਜੇਕਰ ", "ਜਿਵੇਂ ਕਿ "]
      whens := words ["* ", "ਜਦੋਂ "]
      thens := words ["* ", "ਤਦ "]
      ands := words ["* ", "ਅਤੇ "]
      buts := words ["* ", "ਪਰ "] },
    { name := "pl".toList
      features := words ["Właściwość", "Funkcja", "Aspekt", "Potrzeba biznesowa"]
      backgrounds := words ["Założenia"]
      scenarios := words ["Scenariusz"]
      outlines := words ["Szablon scenariusza"]
      examples := words ["Przykłady"]
      givens := words ["* ", "Zakładając ", "Mając ", "Zakładając, że "]
      whens := words ["* ", "Jeżeli ", "Jeśli ", "Gdy ", "Kiedy "]
      thens := words ["* ", "Wtedy "]
      ands := words ["* ", "Oraz ", "I "]
      buts := words ["* ", "Ale "] },
    { name := "pt".toList
      features := words ["Funcionalidade", "Característica", "Caracteristica"]
      backgrounds := words ["Contexto", "Cenário de Fundo", "Cenario de Fundo", "Fundo"]
      scenarios := words ["Cenário", "Cenario"]
      outlines := words 
        ["Esquema do Cenário", "Esquema do Cenario", "Delineação do Cenário",
        "Delineacao do Cenario"]
      examples := words ["Exemplos", "Cenários", "Cenarios"]
      givens := words ["* ", "Dado ", "Dada ", "Dados ", "Dadas "]
      whens := words ["* ", "Quando "]
      thens := words ["* ", "Então ", "Entao "]
      ands := words ["* ", "E "]
      buts := words ["* ", "Mas "] },
    { name := "ro".toList
      features := words ["Functionalitate", "Funcționalitate", "Funcţionalitate"]
      backgrounds := words ["Context"]
      scenarios := words ["Scenariu"]
      outlines := words ["Structura scenariu", "Structură scenariu"]
      examples := words ["Exemple"]
      givens := words 
        ["* ", "Date fiind ", "Dat fiind ", "Dată fiind", "Dati fiind ", "Dați fiind ",
        "Daţi fiind "]
      whens := words ["* ", "Cand ", "Când "]
      thens := words ["* ", "Atunci "]
      ands := words ["* ", "Si ", "Și ", "Şi "]
      buts := words ["* ", "Dar "] },
    { name := "ru".toList
      features := words ["Функция", "Функциональность", "Функционал", "Свойство"]
      backgrounds := words ["Предыстория", "Контекст"]
      scenarios := words ["Сценарий"]
      outlines := words ["Структура сценария"]
      examples := words ["Примеры"]
      givens := words ["* ", "Допустим ", "Дано ", "Пусть ", "Если "]
      whens := words ["* ", "Когда "]
      thens := words ["* ", "То ", "Затем ", "Тогда "]
      ands := words ["* ", "И ", "К тому же ", "Также "]
      buts := words ["* ", "Но ", "А ", "Иначе "] },
    { name := "sk".toList
      features := words ["Požiadavka", "Funkcia", "Vlastnosť"]
      backgrounds := words ["Pozadie"]
      scenarios := words ["Scenár"]
      outlines := words ["Náčrt Scenáru", "Náčrt Scenára", "Osnova Scenára"]
      examples := words ["Príklady"]
      givens := words ["* ", "Pokiaľ ", "Za predpokladu "]
      whens := words ["* ", "Keď ", "Ak "]
      thens := words ["* ", "Tak ", "Potom "]
      ands := words ["* ", "A ", "A tiež ", "A taktiež ", "A zároveň "]
      buts := words ["* ", "Ale "] },
    { name := "sl".toList
      features := words 
        ["Funkcionalnost", "Funkcija", "Možnosti", "Moznosti", "Lastnost", "Značilnost"]
      backgrounds := words ["Kontekst", "Osnova", "Ozadje"]
      scenarios := words ["Scenarij", "Primer"]
      outlines := words ["Struktura scenarija", "Skica", "Koncept", "Oris scenarija", "Osnutek"]
      examples := words ["Primeri", "Scenariji"]
      givens := words ["Dano ", "Podano ", "Zaradi ", "Privzeto "]
      whens := words ["Ko ", "Ce ", "Če ", "Kadar "]
      thens := words ["Nato ", "Potem ", "Takrat "]
      ands := words ["In ", "Ter "]
      buts := words ["Toda ", "Ampak ", "Vendar "] },
    { name := "sr-Cyrl".toList
      features := words ["Функционалност", "Могућност", "Особина"]
      backgrounds := words ["Контекст", "Основа", "Позадина"]
      scenarios := words ["Сценарио", "Пример"]
      outlines := words ["Структура сценарија", "Скица", "Концепт"]
      examples := words ["Примери", "Сценарији"]
      givens := words ["* ", "За дато ", "За дате ", "За дати "]
      whens := words ["* ", "Када ", "Кад "]
      thens := words ["* ", "Онда "]
      ands := words ["* ", "И "]
      buts := words ["* ", "Али "] },
    { name := "sr-Latn".toList
      features := words ["Funkcionalnost", "Mogućnost", "Mogucnost", "Osobina"]
      backgrounds := words ["Kontekst", "Osnova", "Pozadina"]
      scenarios := words ["Scenario", "Primer"]
      outlines := words ["Struktura scenarija", "Skica", "Koncept"]
      examples := words ["Primeri", "Scenariji"]
      givens := words ["* ", "Za dato ", "Za date ", "Za dati "]
      whens := words ["* ", "Kada ", "Kad "]
      thens := words ["* ", "Onda "]
      ands := words ["* ", "I "]
      buts := words ["* ", "Ali "] },
    { name := "sv".toList
      features := words ["Egenskap"]
      backgrounds := words ["Bakgrund"]
      scenarios := words ["Scenario"]
      outlines := words ["Abstrakt Scenario", "Scenariomall"]
      examples := words ["Exempel"]
      givens := words ["* ", "Givet "]
      whens := words ["* ", "När "]
      thens := words ["* ", "Så "]
      ands := words ["* ", "Och "]
      buts := words ["* ", "Men "] },
    { name := "ta".toList
      features := words ["அம்சம்", "வணிக தேவை", "திறன்"]
      backgrounds := words ["பின்னணி"]
      scenarios := words ["காட்சி"]
      outlines := words ["காட்சி சுருக்கம்", "காட்சி வார்ப்புரு"]
      examples := words ["எடுத்துக்காட்டுகள்", "காட்சிகள்", " நிலைமைகளில்"]
      givens := words ["* ", "கொடுக்கப்பட்ட "]
      whens := words ["* ", "எப்போது "]
      thens := words ["* ", "அப்பொழுது "]
      ands := words ["* ", "மேலும்  ", "மற்றும் "]
      buts := words ["* ", "ஆனால்  "] },
    { name := "th".toList
      features := words ["โครงหลัก", "ความต้องการทางธุรกิจ", "ความสามารถ"]
      backgrounds := words ["แนวคิด"]
      scenarios := words ["เหตุการณ์"]
      outlines := words ["สรุปเหตุการณ์", "โครงสร้างของเหตุการณ์"]
      examples := words ["ชุดของตัวอย่าง", "ชุดของเหตุการณ์"]
      givens := words ["* ", "กำหนดให้ "]
      whens := words ["* ", "เมื่อ "]
      thens := words ["* ", "ดังนั้น "]
      ands := words ["* ", "และ "]
      buts := words ["* ", "แต่ "] },
    { name := "tl".toList
      features := words ["గుణము"]
      backgrounds := words ["నేపథ్యం"]
      scenarios := words ["సన్నివేశం"]
      outlines := words ["కథనం"]
      examples := words ["ఉదాహరణలు"]
      givens := words ["* ", "చెప్పబడినది "]
      whens := words ["* ", "ఈ పరిస్థితిలో "]
      thens := words ["* ", "అప్పుడు "]
      ands := words ["* ", "మరియు "]
      buts := words ["* ", "కాని "] },
    { name := "tlh".toList
      features := words ["Qap", "Qu'meH 'ut", "perbogh", "poQbogh malja'", "laH"]
      backgrounds := words ["mo'"]
      scenarios := words ["lut"]
      outlines := words ["lut chovnatlh"]
      examples := words ["ghantoH", "lutmey"]
      givens := words ["* ", "ghu' noblu' ", "DaH ghu' bejlu' "]
      whens := words ["* ", "qaSDI' "]
      thens := words ["* ", "vaj "]
      ands := words ["* ", "'ej ", "latlh "]
      buts := words ["* ", "'ach ", "'a "] },
    { name := "tr".toList
      features := words ["Özellik"]
      backgrounds := words ["Geçmiş"]
      scenarios := words ["Senaryo"]
      outlines := words ["Senaryo taslağı"]
      examples := words ["Örnekler"]
      givens := words ["* ", "Diyelim ki "]
      whens := words ["* ", "Eğer ki "]
      thens := words ["* ", "O zaman "]
      ands := words ["* ", "Ve "]
      buts := words ["* ", "Fakat ", "Ama "] },
    { name := "tt".toList
      features := words ["Мөмкинлек", "Үзенчәлеклелек"]
      backgrounds := words ["Кереш"]
      scenarios := words ["Сценарий"]
      outlines := words ["Сценарийның төзелеше"]
      examples := words ["Үрнәкләр", "Мисаллар"]
      givens := words ["* ", "Әйтик "]
      whens := words ["* ", "Әгәр "]
      thens := words ["* ", "Нәтиҗәдә "]
      ands := words ["* ", "Һәм ", "Вә "]
      buts := words ["* ", "Ләкин ", "Әмма "] },
    { name := "uk".toList
      features := words ["Функціонал"]
      backgrounds := words ["Передумова"]
      scenarios := words ["Сценарій"]
      outlines := words ["Структура сценарію"]
      examples := words ["Приклади"]
      givens := words ["* ", "Припустимо ", "Припустимо, що ", "Нехай ", "Дано "]
      whens := words ["* ", "Якщо ", "Коли "]
      thens := words ["* ", "То ", "Тоді "]
      ands := words ["* ", "І ", "А також ", "Та "]
      buts := words ["* ", "Але "] },
    { name := "ur".toList
      features := words ["صلاحیت", "کاروبار کی ضرورت", "خصوصیت"]
      backgrounds := words ["پس منظر"]
      scenarios := words ["منظرنامہ"]
      outlines := words ["منظر نامے کا خاکہ"]
      examples := words ["مثالیں"]
      givens := words ["* ", "اگر ", "بالفرض ", "فرض کیا "]
      whens := words ["* ", "جب "]
      thens := words ["* ", "پھر ", "تب "]
      ands := words ["* ", "اور "]
      buts := words ["* ", "لیکن "] },
    { name := "uz".toList
      features := words ["Функционал"]
      backgrounds := words ["Тарих"]
      scenarios := words ["Сценарий"]
      outlines := words ["Сценарий структураси"]
      examples := words ["Мисоллар"]
      givens := words ["* ", "Агар "]
      whens := words ["* ", "Агар "]
      thens := words ["* ", "Унда "]
      ands := words ["* ", "Ва "]
      buts := words ["* ", "Лекин ", "Бирок ", "Аммо "] },
    { name := "vi".toList
      features := words ["Tính năng"]
      backgrounds := words ["Bối cảnh"]
      scenarios := words ["Tình huống", "Kịch bản"]
      outlines := words ["Khung tình huống", "Khung kịch bản"]
      examples := words ["Dữ liệu"]
      givens := words ["* ", "Biết ", "Cho "]
      whens := words ["* ", "Khi "]
      thens := words ["* ", "Thì "]
      ands := words ["* ", "Và "]
      buts := words ["* ", "Nhưng "] },
    { name := "zh-CN".toList
      features := words ["功能"]
      backgrounds := words ["背景"]
      scenarios := words ["场景", "剧本"]
      outlines := words ["场景大纲", "剧本大纲"]
      examples := words ["例子"]
      givens := words ["* ", "假如", "假设", "假定"]
      whens := words ["* ", "当"]
      thens := words ["* ", "那么"]
      ands := words ["* ", "而且", "并且", "同时"]
      buts := words ["* ", "但是"] },
    { name := "zh-TW".toList
      features := words ["功能"]
      backgrounds := words ["背景"]
      scenarios := words ["場景", "劇本"]
      outlines := words ["場景大綱", "劇本大綱"]
      examples := words ["例子"]
      givens := words ["* ", "假如", "假設", "假定"]
      whens := words ["* ", "當"]
      thens := words ["* ", "那麼"]
      ands := words ["* ", "而且", "並且", "同時"]
      buts := words ["* ", "但是"] }]

/-- The dialect of that name. -/
def byName (name : Text) : Option Dialect := table.find? fun d => d.name == name

/-- The names of all dialects, in alphabetical order. -/
def names : List Text := table.map name

end FeatureFile.Dialect
