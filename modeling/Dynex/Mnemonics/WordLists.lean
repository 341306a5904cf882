import Dynex.Mnemonics.ElectrumWords

/-!
# Two word lists

The Russian and the Ukrainian languages of `Mnemonics/russian.h` and `Mnemonics/ukrainian.h`,
each its name from `electrum-words.cpp`, its 1626 words and its prefix length as the constructor
passes them to `Base`.
-/

set_option autoImplicit false

namespace Dynex.Language

/-- `Language::Russian`: its words, which prefixes of 4 characters tell apart. -/
def Russian : Base where
  language_name := "русский язык"
  word_list := [
    "абажур", "абзац", "абонент", "абрикос", "абсурд", "авангард", "август", "авиация", "авоська",
    "автор", "агат", "агент", "агитатор", "агнец", "агония", "агрегат", "адвокат", "адмирал",
    "адрес", "ажиотаж", "азарт", "азбука", "азот", "аист", "айсберг", "академия", "аквариум",
    "аккорд", "акробат", "аксиома", "актер", "акула", "акция", "алгоритм", "алебарда", "аллея",
    "алмаз", "алтарь", "алфавит", "алхимик", "алый", "альбом", "алюминий", "амбар", "аметист",
    "амнезия", "ампула", "амфора", "анализ", "ангел", "анекдот", "анимация", "анкета", "аномалия",
    "ансамбль", "антенна", "апатия", "апельсин", "апофеоз", "аппарат", "апрель", "аптека",
    "арабский", "арбуз", "аргумент", "арест", "ария", "арка", "армия", "аромат", "арсенал",
    "артист", "архив", "аршин", "асбест", "аскетизм", "аспект", "ассорти", "астроном", "асфальт",
    "атака", "ателье", "атлас", "атом", "атрибут", "аудитор", "аукцион", "аура", "афера", "афиша",
    "ахинея", "ацетон", "аэропорт", "бабушка", "багаж", "бадья", "база", "баклажан", "балкон",
    "бампер", "банк", "барон", "бассейн", "батарея", "бахрома", "башня", "баян", "бегство",
    "бедро", "бездна", "бекон", "белый", "бензин", "берег", "беседа", "бетонный", "биатлон",
    "библия", "бивень", "бигуди", "бидон", "бизнес", "бикини", "билет", "бинокль", "биология",
    "биржа", "бисер", "битва", "бицепс", "благо", "бледный", "близкий", "блок", "блуждать",
    "блюдо", "бляха", "бобер", "богатый", "бодрый", "боевой", "бокал", "большой", "борьба",
    "босой", "ботинок", "боцман", "бочка", "боярин", "брать", "бревно", "бригада", "бросать",
    "брызги", "брюки", "бублик", "бугор", "будущее", "буква", "бульвар", "бумага", "бунт",
    "бурный", "бусы", "бутылка", "буфет", "бухта", "бушлат", "бывалый", "быль", "быстрый", "быть",
    "бюджет", "бюро", "бюст", "вагон", "важный", "ваза", "вакцина", "валюта", "вампир", "ванная",
    "вариант", "вассал", "вата", "вафля", "вахта", "вдова", "вдыхать", "ведущий", "веер",
    "вежливый", "везти", "веко", "великий", "вена", "верить", "веселый", "ветер", "вечер",
    "вешать", "вещь", "веяние", "взаимный", "взбучка", "взвод", "взгляд", "вздыхать", "взлетать",
    "взмах", "взнос", "взор", "взрыв", "взывать", "взятка", "вибрация", "визит", "вилка", "вино",
    "вирус", "висеть", "витрина", "вихрь", "вишневый", "включать", "вкус", "власть", "влечь",
    "влияние", "влюблять", "внешний", "внимание", "внук", "внятный", "вода", "воевать", "вождь",
    "воздух", "войти", "вокзал", "волос", "вопрос", "ворота", "восток", "впадать", "впускать",
    "врач", "время", "вручать", "всадник", "всеобщий", "вспышка", "встреча", "вторник", "вулкан",
    "вурдалак", "входить", "въезд", "выбор", "вывод", "выгодный", "выделять", "выезжать",
    "выживать", "вызывать", "выигрыш", "вылезать", "выносить", "выпивать", "высокий", "выходить",
    "вычет", "вышка", "выяснять", "вязать", "вялый", "гавань", "гадать", "газета", "гаишник",
    "галстук", "гамма", "гарантия", "гастроли", "гвардия", "гвоздь", "гектар", "гель", "генерал",
    "геолог", "герой", "гешефт", "гибель", "гигант", "гильза", "гимн", "гипотеза", "гитара",
    "глаз", "глина", "глоток", "глубокий", "глыба", "глядеть", "гнать", "гнев", "гнить", "гном",
    "гнуть", "говорить", "годовой", "голова", "гонка", "город", "гость", "готовый", "граница",
    "грех", "гриб", "громкий", "группа", "грызть", "грязный", "губа", "гудеть", "гулять",
    "гуманный", "густой", "гуща", "давать", "далекий", "дама", "данные", "дарить", "дать", "дача",
    "дверь", "движение", "двор", "дебют", "девушка", "дедушка", "дежурный", "дезертир", "действие",
    "декабрь", "дело", "демократ", "день", "депутат", "держать", "десяток", "детский", "дефицит",
    "дешевый", "деятель", "джаз", "джинсы", "джунгли", "диалог", "диван", "диета", "дизайн",
    "дикий", "динамика", "диплом", "директор", "диск", "дитя", "дичь", "длинный", "дневник",
    "добрый", "доверие", "договор", "дождь", "доза", "документ", "должен", "домашний", "допрос",
    "дорога", "доход", "доцент", "дочь", "дощатый", "драка", "древний", "дрожать", "друг", "дрянь",
    "дубовый", "дуга", "дудка", "дукат", "дуло", "думать", "дупло", "дурак", "дуть", "духи",
    "душа", "дуэт", "дымить", "дыня", "дыра", "дыханье", "дышать", "дьявол", "дюжина", "дюйм",
    "дюна", "дядя", "дятел", "егерь", "единый", "едкий", "ежевика", "ежик", "езда", "елка",
    "емкость", "ерунда", "ехать", "жадный", "жажда", "жалеть", "жанр", "жара", "жать", "жгучий",
    "ждать", "жевать", "желание", "жемчуг", "женщина", "жертва", "жесткий", "жечь", "живой",
    "жидкость", "жизнь", "жилье", "жирный", "житель", "журнал", "жюри", "забывать", "завод",
    "загадка", "задача", "зажечь", "зайти", "закон", "замечать", "занимать", "западный",
    "зарплата", "засыпать", "затрата", "захват", "зацепка", "зачет", "защита", "заявка", "звать",
    "звезда", "звонить", "звук", "здание", "здешний", "здоровье", "зебра", "зевать", "зеленый",
    "земля", "зенит", "зеркало", "зефир", "зигзаг", "зима", "зиять", "злак", "злой", "змея",
    "знать", "зной", "зодчий", "золотой", "зомби", "зона", "зоопарк", "зоркий", "зрачок", "зрение",
    "зритель", "зубной", "зыбкий", "зять", "игла", "иголка", "играть", "идея", "идиот", "идол",
    "идти", "иерархия", "избрать", "известие", "изгонять", "издание", "излагать", "изменять",
    "износ", "изоляция", "изрядный", "изучать", "изымать", "изящный", "икона", "икра", "иллюзия",
    "имбирь", "иметь", "имидж", "иммунный", "империя", "инвестор", "индивид", "инерция", "инженер",
    "иномарка", "институт", "интерес", "инфекция", "инцидент", "ипподром", "ирис", "ирония",
    "искать", "история", "исходить", "исчезать", "итог", "июль", "июнь", "кабинет", "кавалер",
    "кадр", "казарма", "кайф", "кактус", "калитка", "камень", "канал", "капитан", "картина",
    "касса", "катер", "кафе", "качество", "каша", "каюта", "квартира", "квинтет", "квота", "кедр",
    "кекс", "кенгуру", "кепка", "керосин", "кетчуп", "кефир", "кибитка", "кивнуть", "кидать",
    "километр", "кино", "киоск", "кипеть", "кирпич", "кисть", "китаец", "класс", "клетка",
    "клиент", "клоун", "клуб", "клык", "ключ", "клятва", "книга", "кнопка", "кнут", "князь",
    "кобура", "ковер", "коготь", "кодекс", "кожа", "козел", "койка", "коктейль", "колено",
    "компания", "конец", "копейка", "короткий", "костюм", "котел", "кофе", "кошка", "красный",
    "кресло", "кричать", "кровь", "крупный", "крыша", "крючок", "кубок", "кувшин", "кудрявый",
    "кузов", "кукла", "культура", "кумир", "купить", "курс", "кусок", "кухня", "куча", "кушать",
    "кювет", "лабиринт", "лавка", "лагерь", "ладонь", "лазерный", "лайнер", "лакей", "лампа",
    "ландшафт", "лапа", "ларек", "ласковый", "лауреат", "лачуга", "лаять", "лгать", "лебедь",
    "левый", "легкий", "ледяной", "лежать", "лекция", "лента", "лепесток", "лесной", "лето",
    "лечь", "леший", "лживый", "либерал", "ливень", "лига", "лидер", "ликовать", "лиловый",
    "лимон", "линия", "липа", "лирика", "лист", "литр", "лифт", "лихой", "лицо", "личный",
    "лишний", "лобовой", "ловить", "логика", "лодка", "ложка", "лозунг", "локоть", "ломать",
    "лоно", "лопата", "лорд", "лось", "лоток", "лохматый", "лошадь", "лужа", "лукавый", "луна",
    "лупить", "лучший", "лыжный", "лысый", "львиный", "льгота", "льдина", "любить", "людской",
    "люстра", "лютый", "лягушка", "магазин", "мадам", "мазать", "майор", "максимум", "мальчик",
    "манера", "март", "масса", "мать", "мафия", "махать", "мачта", "машина", "маэстро", "маяк",
    "мгла", "мебель", "медведь", "мелкий", "мемуары", "менять", "мера", "место", "метод",
    "механизм", "мечтать", "мешать", "миграция", "мизинец", "микрофон", "миллион", "минута",
    "мировой", "миссия", "митинг", "мишень", "младший", "мнение", "мнимый", "могила", "модель",
    "мозг", "мойка", "мокрый", "молодой", "момент", "монах", "море", "мост", "мотор", "мохнатый",
    "мочь", "мошенник", "мощный", "мрачный", "мстить", "мудрый", "мужчина", "музыка", "мука",
    "мумия", "мундир", "муравей", "мусор", "мутный", "муфта", "муха", "мучить", "мушкетер", "мыло",
    "мысль", "мыть", "мычать", "мышь", "мэтр", "мюзикл", "мягкий", "мякиш", "мясо", "мятый",
    "мячик", "набор", "навык", "нагрузка", "надежда", "наемный", "нажать", "называть", "наивный",
    "накрыть", "налог", "намерен", "наносить", "написать", "народ", "натура", "наука", "нация",
    "начать", "небо", "невеста", "негодяй", "неделя", "нежный", "незнание", "нелепый", "немалый",
    "неправда", "нервный", "нести", "нефть", "нехватка", "нечистый", "неясный", "нива", "нижний",
    "низкий", "никель", "нирвана", "нить", "ничья", "ниша", "нищий", "новый", "нога", "ножницы",
    "ноздря", "ноль", "номер", "норма", "нота", "ночь", "ноша", "ноябрь", "нрав", "нужный",
    "нутро", "нынешний", "нырнуть", "ныть", "нюанс", "нюхать", "няня", "оазис", "обаяние",
    "обвинять", "обгонять", "обещать", "обжигать", "обзор", "обида", "область", "обмен",
    "обнимать", "оборона", "образ", "обучение", "обходить", "обширный", "общий", "объект",
    "обычный", "обязать", "овальный", "овес", "овощи", "овраг", "овца", "овчарка", "огненный",
    "огонь", "огромный", "огурец", "одежда", "одинокий", "одобрить", "ожидать", "ожог", "озарение",
    "озеро", "означать", "оказать", "океан", "оклад", "окно", "округ", "октябрь", "окурок",
    "олень", "опасный", "операция", "описать", "оплата", "опора", "оппонент", "опрос", "оптимизм",
    "опускать", "опыт", "орать", "орбита", "орган", "орден", "орел", "оригинал", "оркестр",
    "орнамент", "оружие", "осадок", "освещать", "осень", "осина", "осколок", "осмотр", "основной",
    "особый", "осуждать", "отбор", "отвечать", "отдать", "отец", "отзыв", "открытие", "отмечать",
    "относить", "отпуск", "отрасль", "отставка", "оттенок", "отходить", "отчет", "отъезд",
    "офицер", "охапка", "охота", "охрана", "оценка", "очаг", "очередь", "очищать", "очки",
    "ошейник", "ошибка", "ощущение", "павильон", "падать", "паек", "пакет", "палец", "память",
    "панель", "папка", "партия", "паспорт", "патрон", "пауза", "пафос", "пахнуть", "пациент",
    "пачка", "пашня", "певец", "педагог", "пейзаж", "пельмень", "пенсия", "пепел", "период",
    "песня", "петля", "пехота", "печать", "пешеход", "пещера", "пианист", "пиво", "пиджак",
    "пиковый", "пилот", "пионер", "пирог", "писать", "пить", "пицца", "пишущий", "пища", "план",
    "плечо", "плита", "плохой", "плыть", "плюс", "пляж", "победа", "повод", "погода", "подумать",
    "поехать", "пожимать", "позиция", "поиск", "покой", "получать", "помнить", "пони", "поощрять",
    "попадать", "порядок", "пост", "поток", "похожий", "поцелуй", "почва", "пощечина", "поэт",
    "пояснить", "право", "предмет", "проблема", "пруд", "прыгать", "прямой", "психолог", "птица",
    "публика", "пугать", "пудра", "пузырь", "пуля", "пункт", "пурга", "пустой", "путь", "пухлый",
    "пучок", "пушистый", "пчела", "пшеница", "пыль", "пытка", "пыхтеть", "пышный", "пьеса",
    "пьяный", "пятно", "работа", "равный", "радость", "развитие", "район", "ракета", "рамка",
    "ранний", "рапорт", "рассказ", "раунд", "рация", "рвать", "реальный", "ребенок", "реветь",
    "регион", "редакция", "реестр", "режим", "резкий", "рейтинг", "река", "религия", "ремонт",
    "рента", "реплика", "ресурс", "реформа", "рецепт", "речь", "решение", "ржавый", "рисунок",
    "ритм", "рифма", "робкий", "ровный", "рогатый", "родитель", "рождение", "розовый", "роковой",
    "роль", "роман", "ронять", "рост", "рота", "роща", "рояль", "рубль", "ругать", "руда", "ружье",
    "руины", "рука", "руль", "румяный", "русский", "ручка", "рыба", "рывок", "рыдать", "рыжий",
    "рынок", "рысь", "рыть", "рыхлый", "рыцарь", "рычаг", "рюкзак", "рюмка", "рябой", "рядовой",
    "сабля", "садовый", "сажать", "салон", "самолет", "сани", "сапог", "сарай", "сатира", "сауна",
    "сахар", "сбегать", "сбивать", "сбор", "сбыт", "свадьба", "свет", "свидание", "свобода",
    "связь", "сгорать", "сдвигать", "сеанс", "северный", "сегмент", "седой", "сезон", "сейф",
    "секунда", "сельский", "семья", "сентябрь", "сердце", "сеть", "сечение", "сеять", "сигнал",
    "сидеть", "сизый", "сила", "символ", "синий", "сирота", "система", "ситуация", "сиять",
    "сказать", "скважина", "скелет", "скидка", "склад", "скорый", "скрывать", "скучный", "слава",
    "слеза", "слияние", "слово", "случай", "слышать", "слюна", "смех", "смирение", "смотреть",
    "смутный", "смысл", "смятение", "снаряд", "снег", "снижение", "сносить", "снять", "событие",
    "совет", "согласие", "сожалеть", "сойти", "сокол", "солнце", "сомнение", "сонный", "сообщать",
    "соперник", "сорт", "состав", "сотня", "соус", "социолог", "сочинять", "союз", "спать",
    "спешить", "спина", "сплошной", "способ", "спутник", "средство", "срок", "срывать", "стать",
    "ствол", "стена", "стихи", "сторона", "страна", "студент", "стыд", "субъект", "сувенир",
    "сугроб", "судьба", "суета", "суждение", "сукно", "сулить", "сумма", "сунуть", "супруг",
    "суровый", "сустав", "суть", "сухой", "суша", "существо", "сфера", "схема", "сцена", "счастье",
    "счет", "считать", "сшивать", "съезд", "сынок", "сыпать", "сырье", "сытый", "сыщик", "сюжет",
    "сюрприз", "таблица", "таежный", "таинство", "тайна", "такси", "талант", "таможня", "танец",
    "тарелка", "таскать", "тахта", "тачка", "таять", "тварь", "твердый", "творить", "театр",
    "тезис", "текст", "тело", "тема", "тень", "теория", "теплый", "терять", "тесный", "тетя",
    "техника", "течение", "тигр", "типичный", "тираж", "титул", "тихий", "тишина", "ткань",
    "товарищ", "толпа", "тонкий", "топливо", "торговля", "тоска", "точка", "тощий", "традиция",
    "тревога", "трибуна", "трогать", "труд", "трюк", "тряпка", "туалет", "тугой", "туловище",
    "туман", "тундра", "тупой", "турнир", "тусклый", "туфля", "туча", "туша", "тыкать", "тысяча",
    "тьма", "тюльпан", "тюрьма", "тяга", "тяжелый", "тянуть", "убеждать", "убирать", "убогий",
    "убыток", "уважение", "уверять", "увлекать", "угнать", "угол", "угроза", "удар", "удивлять",
    "удобный", "уезд", "ужас", "ужин", "узел", "узкий", "узнавать", "узор", "уйма", "уклон",
    "укол", "уксус", "улетать", "улица", "улучшать", "улыбка", "уметь", "умиление", "умный",
    "умолять", "умысел", "унижать", "уносить", "уныние", "упасть", "уплата", "упор", "упрекать",
    "упускать", "уран", "урна", "уровень", "усадьба", "усердие", "усилие", "ускорять", "условие",
    "усмешка", "уснуть", "успеть", "усыпать", "утешать", "утка", "уточнять", "утро", "утюг",
    "уходить", "уцелеть", "участие", "ученый", "учитель", "ушко", "ущерб", "уютный", "уяснять",
    "фабрика", "фаворит", "фаза", "файл", "факт", "фамилия", "фантазия", "фара", "фасад",
    "февраль", "фельдшер", "феномен", "ферма", "фигура", "физика", "фильм", "финал", "фирма",
    "фишка", "флаг", "флейта", "флот", "фокус", "фольклор", "фонд", "форма", "фото", "фраза",
    "фреска", "фронт", "фрукт", "функция", "фуражка", "футбол", "фыркать", "халат", "хамство",
    "хаос", "характер", "хата", "хватать", "хвост", "хижина", "хилый", "химия", "хирург", "хитрый",
    "хищник", "хлам", "хлеб", "хлопать", "хмурый", "ходить", "хозяин", "хоккей", "холодный",
    "хороший", "хотеть", "хохотать", "храм", "хрен", "хриплый", "хроника", "хрупкий", "художник",
    "хулиган", "хутор", "царь", "цвет", "цель", "цемент", "центр", "цепь", "церковь", "цикл",
    "цилиндр", "циничный", "цирк", "цистерна", "цитата", "цифра", "цыпленок", "чадо", "чайник",
    "часть", "чашка", "человек", "чемодан", "чепуха", "черный", "честь", "четкий", "чехол",
    "чиновник", "число", "читать", "членство", "чреватый", "чтение", "чувство", "чугунный", "чудо",
    "чужой", "чукча", "чулок", "чума", "чуткий", "чучело", "чушь", "шаблон", "шагать", "шайка",
    "шакал", "шалаш", "шампунь", "шанс", "шапка", "шарик", "шасси", "шатер", "шахта", "шашлык",
    "швейный", "швырять", "шевелить", "шедевр", "шейка", "шелковый", "шептать", "шерсть",
    "шестерка", "шикарный", "шинель", "шипеть", "широкий", "шить", "шишка", "шкаф", "школа",
    "шкура", "шланг", "шлем", "шлюпка", "шляпа", "шнур", "шоколад", "шорох", "шоссе", "шофер",
    "шпага", "шпион", "шприц", "шрам", "шрифт", "штаб", "штора", "штраф", "штука", "штык", "шуба",
    "шуметь", "шуршать", "шутка", "щадить", "щедрый", "щека", "щель", "щенок", "щепка", "щетка",
    "щука", "эволюция", "эгоизм", "экзамен", "экипаж", "экономия", "экран", "эксперт", "элемент",
    "элита", "эмблема", "эмигрант", "эмоция", "энергия", "эпизод", "эпоха", "эскиз", "эссе",
    "эстрада", "этап", "этика", "этюд", "эфир", "эффект", "эшелон", "юбилей", "юбка", "южный",
    "юмор", "юноша", "юрист", "яблоко", "явление", "ягода", "ядерный", "ядовитый", "ядро", "язва",
    "язык", "яйцо", "якорь", "январь", "японец", "яркий", "ярмарка", "ярость", "ярус", "ясный",
    "яхта", "ячейка", "ящик"
  ]
  unique_prefix_length := 4

/-- `Language::Ukrainian`: its words, which prefixes of 4 characters tell apart. -/
def Ukrainian : Base where
  language_name := "українська мова"
  word_list := [
    "абат", "абощо", "абсурд", "автор", "агов", "адепт", "азарт", "акцент", "алея", "альбом",
    "альфа", "амінь", "ананас", "ангар", "анкета", "апарат", "арена", "арешт", "аркуш", "армія",
    "аромат", "артист", "артіль", "арфа", "аршин", "атлас", "атож", "афіша", "бабай", "бабин",
    "бавити", "багач", "бажати", "балон", "банан", "банк", "бариня", "барліг", "бармен", "барон",
    "бачити", "баюра", "береза", "бидло", "билина", "бильце", "битва", "битий", "бичок", "благо",
    "бланк", "ближче", "блиск", "бляха", "блідий", "бодай", "болото", "болт", "бомба", "бора",
    "борт", "борщ", "босий", "боягуз", "боязко", "брань", "браття", "брижа", "бритва", "бронза",
    "брук", "брусок", "бувало", "будка", "будяк", "буква", "букет", "було", "бурка", "буряк",
    "бути", "буття", "буфет", "бухати", "бюст", "бігти", "бігцем", "бідняк", "бізнес", "бійка",
    "білан", "бісик", "вабити", "вада", "вага", "вадити", "важіль", "вазон", "валер", "валити",
    "валун", "вальс", "валюта", "валяти", "валіза", "вампір", "вантаж", "варкий", "васал",
    "ватага", "вахтер", "вбити", "вбік", "вверх", "ввесь", "вгорі", "вдало", "вдати", "вдвох",
    "вдень", "вдова", "вдома", "вдягти", "вельми", "вепр", "верета", "версія", "вертеп", "вершок",
    "весло", "весна", "вести", "весь", "вечеря", "вжити", "взвод", "взимку", "взнати", "взятий",
    "вибрик", "вигляд", "визиск", "вийти", "викрик", "вилиця", "вимити", "винен", "винний",
    "вираз", "вирій", "витати", "виток", "вихід", "вишити", "вишкіл", "вишня", "вищати", "вищий",
    "вкрай", "вкупі", "вмерти", "вміст", "вміти", "вниз", "вовчий", "вогкий", "вогонь", "вода",
    "водний", "вождь", "возний", "вокзал", "волох", "волхв", "воля", "ворог", "воша", "вперше",
    "вплив", "вправо", "врешті", "врожай", "всього", "всюди", "всякий", "втерти", "втома",
    "втрата", "втіха", "вузлик", "вуйко", "вулиця", "вулкан", "вусик", "вчора", "вщент", "віват",
    "відати", "відлік", "відсік", "відхід", "відьма", "війна", "вікно", "вікінг", "віник", "вінок",
    "віра", "віршик", "віск", "вість", "вісім", "вітер", "віхоть", "вішати", "віяти", "гадати",
    "гайда", "галузь", "ганити", "гаплик", "гаразд", "гарба", "гарно", "гарт", "гатити", "гвинт",
    "генрі", "геолог", "герб", "герць", "гиря", "гладко", "глас", "глек", "глечик", "глузд",
    "глухий", "гнаний", "гнида", "гнилий", "гнути", "гнівно", "гнідий", "гніздо", "гній", "годен",
    "година", "голка", "голота", "голуб", "гонець", "гонор", "гопак", "гордий", "горло", "горня",
    "горст", "горщик", "гостя", "готово", "градус", "грань", "грати", "граф", "грація", "гребти",
    "грек", "грець", "гречка", "грубо", "грудка", "грюкіт", "грітий", "гріх", "губка", "гудок",
    "гуляти", "гумка", "гурт", "гусар", "гуси", "гусінь", "гута", "гуцул", "гяур", "гідний",
    "гімн", "гіпс", "гіркий", "гірше", "давити", "далеко", "далі", "дамба", "дань", "дарма",
    "даром", "дата", "датися", "датчик", "дашок", "дверці", "двійка", "двір", "двічі", "дедалі",
    "декан", "демон", "депеша", "дерево", "дерти", "десь", "деякий", "деінде", "джаз", "джинси",
    "джип", "дзьоб", "дибати", "дивина", "дивний", "дикий", "димар", "динька", "дитя", "днище",
    "добро", "добір", "довбня", "довго", "доволі", "довший", "догляд", "додати", "додому",
    "дожити", "дозвіл", "доки", "докір", "долати", "долу", "доля", "дома", "донизу", "донька",
    "доня", "допіру", "дорога", "досвід", "дослід", "доста", "досі", "дотик", "дотла", "доторк",
    "доцент", "доїти", "друг", "друкар", "дрібно", "дуга", "дуже", "дужий", "дукач", "думка",
    "дурно", "дуріти", "дути", "душно", "дюна", "дядина", "дятел", "дідусь", "дійти", "ділити",
    "діра", "дірка", "дітися", "егоїзм", "едем", "екстаз", "екіпаж", "еліта", "етап", "етюд",
    "ефект", "ешелон", "жадоба", "жалоба", "жаль", "жанр", "жахати", "жахний", "жваво", "жереб",
    "жертва", "жест", "живити", "живо", "жилка", "житися", "житло", "житній", "життя", "жменя",
    "жмут", "жнець", "жнива", "жовнір", "жовтий", "жовч", "жолоб", "жолудь", "жрець", "жупан",
    "журба", "журнал", "жучок", "жінка", "забити", "завити", "загал", "загс", "задати", "задля",
    "задній", "задом", "зажити", "зайвий", "закон", "закрут", "зала", "замет", "заміж", "заново",
    "заодно", "заочно", "запах", "запона", "засув", "зась", "затято", "захист", "зачати", "зашити",
    "заячий", "заєць", "збирач", "збити", "зблиск", "збоку", "зброя", "збіжжя", "збір", "звання",
    "звити", "звичай", "зворот", "звідти", "звір", "згаяти", "згоден", "здати", "здоров", "земля",
    "зигзаг", "зима", "зимний", "зиск", "зйомка", "злам", "злегка", "злий", "зліва", "злізти",
    "злість", "зліт", "змити", "змога", "змійка", "зміст", "знайда", "знання", "знову", "знятий",
    "зовні", "зозуля", "зойк", "зонд", "зорити", "зоря", "зоріти", "зроду", "зрідка", "зубок",
    "зуміти", "зілля", "ймення", "йолоп", "кабан", "каблук", "казан", "казино", "какао", "кала",
    "калина", "калоша", "калюжа", "канава", "канчук", "капець", "капище", "капітан", "карась",
    "карета", "карта", "касета", "касир", "каска", "катати", "качан", "каша", "кашель", "кашкет",
    "каяття", "каїн", "квач", "кваша", "кволо", "кедр", "кейс", "келих", "кефір", "кийок", "килим",
    "кирея", "кирка", "кисень", "кисло", "кисіль", "киця", "кишеня", "кишка", "кишіти", "клепка",
    "клин", "клон", "клоун", "клубок", "клунок", "ключ", "кліть", "книжка", "князь", "кобура",
    "коваль", "ковила", "ковпак", "ковчег", "кодекс", "кожух", "козеня", "козир", "козуб",
    "коледж", "колиба", "колоти", "коліно", "комаха", "комод", "конати", "конче", "конюх",
    "коняка", "кора", "коржик", "корона", "корпус", "корчма", "коса", "косий", "косяк", "котел",
    "котик", "котрий", "котяра", "кофта", "кохати", "коцюба", "кошик", "кошт", "крадій", "краля",
    "крам", "кран", "кратер", "кращий", "країна", "кредит", "крем", "кривда", "криза", "крити",
    "криця", "кролик", "кругом", "крук", "кряж", "крісло", "кубик", "кубло", "кузина", "кузня",
    "кукіль", "культ", "кума", "куна", "куняти", "купе", "купчик", "курган", "кури", "курний",
    "курява", "кусник", "кутик", "кутя", "кухоль", "кушнір", "кшталт", "кілер", "кіль", "кінець",
    "кінчик", "кінь", "кіоск", "кіска", "кістка", "кітель", "кішка", "лабети", "лава", "лавиця",
    "лагуна", "ладо", "лазити", "лазня", "ламати", "лантух", "лапа", "лапка", "ласка", "ласощі",
    "левада", "легко", "легіон", "ледар", "ледь", "лежак", "лезо", "лекція", "леле", "лемент",
    "летіти", "лижа", "линва", "линути", "липень", "лисиця", "лист", "литвин", "литися", "лихий",
    "лицар", "лице", "личина", "личко", "лишати", "лишити", "лобода", "логіка", "лоза", "лозина",
    "лозунг", "лопух", "лоро", "лунати", "лупати", "луска", "льон", "любов", "любчик", "людний",
    "люлька", "люто", "лягати", "ляда", "лячно", "ліана", "лігво", "ліжко", "ліки", "лікоть",
    "лілея", "лінь", "ліпити", "ліпший", "ліра", "ліса", "лісник", "літати", "літо", "лічити",
    "мабуть", "магнат", "мадам", "мазепа", "мазур", "майдан", "майже", "майка", "майно", "майя",
    "маклер", "максим", "макуха", "мальва", "малюк", "маліти", "мандри", "маневр", "мантія",
    "мара", "марка", "мармур", "марний", "марс", "марш", "масаж", "масний", "масово", "мастак",
    "матка", "матуся", "мафія", "махом", "машина", "маячня", "маєток", "медик", "медуза", "межа",
    "менш", "меню", "мерщій", "мести", "месія", "мета", "метеор", "меткий", "метод", "мечеть",
    "минати", "минути", "мирний", "миро", "миска", "мисль", "мити", "митра", "миттю", "миша",
    "млин", "млосно", "мляво", "мліти", "мовби", "мовний", "могти", "мода", "модний", "модуль",
    "мокро", "молоти", "монгол", "мораль", "морг", "морок", "мотати", "мотив", "мотор", "мотуз",
    "мощі", "мрець", "мрія", "мстити", "мудро", "мужньо", "муляти", "мураха", "мутний", "муха",
    "мушка", "мчати", "мідь", "мікроб", "мілкий", "міняти", "міраж", "місити", "місток", "міцний",
    "набити", "набік", "навіщо", "нагай", "нагорі", "надати", "надмір", "надпис", "надути", "наді",
    "назад", "наймит", "налити", "наліт", "намір", "напис", "напрям", "напій", "наразі", "нарком",
    "наруга", "насип", "наскок", "натовп", "натура", "нахил", "нацист", "начеб", "неволя",
    "негода", "недруг", "незле", "нелюд", "немає", "неміч", "неначе", "ненка", "нерв", "нехай",
    "нехотя", "нижче", "никати", "нитка", "нить", "нишком", "новак", "новела", "новина", "ножик",
    "носик", "носок", "носій", "нота", "нотка", "нудний", "нужда", "нуль", "нумо", "ніжно",
    "нізащо", "нікуди", "німб", "німець", "німота", "нічого", "ніяк", "обабіч", "обвал", "обидва",
    "обмаль", "обмін", "обняти", "обоз", "обора", "обоє", "обрис", "обруч", "обхід", "обшир",
    "обід", "обіч", "овал", "овес", "одежа", "одинак", "одійти", "ожина", "окань", "окраса",
    "окрім", "олія", "омар", "онде", "оний", "опора", "оправа", "опікун", "опір", "оракул", "орач",
    "оргазм", "особа", "осокір", "острів", "осуд", "осяяти", "осінь", "отак", "отам", "отвір",
    "отим", "отой", "отрок", "отрута", "офіс", "офіцер", "охайно", "охнути", "охота", "охочий",
    "оцей", "оцінка", "очерет", "очний", "падати", "падло", "пазуха", "пака", "палата", "палець",
    "палити", "палко", "пальма", "панель", "панна", "папаха", "паркет", "паста", "патли", "патрон",
    "патьок", "пафос", "пацан", "паче", "пашіти", "паща", "певен", "певне", "педаль", "пекуче",
    "пелька", "пенсне", "пень", "перина", "перон", "перст", "перший", "печаль", "печеня", "пилюка",
    "пиляти", "пиріг", "писар", "писк", "писок", "пиття", "пиха", "пищати", "пияк", "плазма",
    "плай", "план", "пласт", "плач", "плесо", "плече", "плин", "плугар", "плюс", "плямка",
    "плівка", "плід", "плітка", "побути", "побіля", "повз", "повний", "повіки", "погано", "погляд",
    "погон", "поезія", "поет", "пожежа", "пожива", "позад", "позов", "поки", "покора", "покров",
    "полин", "полк", "полюс", "поляк", "політ", "помалу", "помста", "поміж", "понад", "попадя",
    "попіл", "пора", "порив", "порода", "портал", "посаг", "посол", "потиск", "потому", "потуга",
    "потіха", "пошити", "пояс", "поїти", "право", "прадід", "праска", "присуд", "притча", "приціл",
    "пробіл", "провал", "проект", "пройти", "прокоп", "проміж", "прорив", "просо", "протяг",
    "прохід", "прояв", "пружно", "прямий", "прірва", "псалом", "птах", "пташка", "пузо", "пульс",
    "пункт", "пусто", "пуття", "путь", "пшоно", "півень", "півник", "піджак", "підло", "підряд",
    "підхід", "піжама", "пільга", "піна", "піонер", "після", "піст", "пітон", "піхва", "пічка",
    "рабиня", "равлик", "раджа", "ради", "радник", "район", "ракета", "рама", "рамено", "ранг",
    "ранець", "ранити", "ранком", "рано", "раніш", "раптом", "рать", "рачки", "ребро", "рева",
    "ревище", "ревний", "ревти", "регіт", "рейка", "рейс", "рекорд", "ректор", "ремінь", "рента",
    "рецепт", "речник", "ривок", "ридати", "ринути", "риса", "робити", "рогоза", "родити", "роза",
    "розбір", "розкіш", "розмір", "розпад", "розум", "роман", "ротик", "рубати", "рубець", "руда",
    "румун", "рурка", "русин", "рухати", "рученя", "ручка", "рушати", "рушій", "руїна", "рядком",
    "рядно", "рядок", "ряска", "ряст", "рівень", "рідко", "рідня", "різкий", "різник", "рішати",
    "рішучо", "сага", "садиба", "садок", "сакви", "сало", "салют", "самець", "самиця", "сапер",
    "сарана", "сварка", "сваха", "свинка", "свято", "свіжо", "світло", "свіча", "сейм", "секрет",
    "сектор", "секція", "селити", "селюк", "серб", "сердюк", "середа", "серп", "серія", "сизий",
    "синтез", "синяк", "синій", "сириця", "ситий", "сичати", "скала", "скарб", "скелет", "склад",
    "скніти", "скоба", "скорий", "скраю", "скриня", "слабий", "славка", "слати", "сливка",
    "слимак", "служба", "сльота", "сліпо", "смерть", "смик", "сморід", "смутно", "сміло", "снаряд",
    "снасть", "собака", "собі", "сокира", "сокіл", "солома", "солід", "соната", "сонний", "соня",
    "сопка", "сорт", "сосна", "сотка", "соус", "соціум", "союз", "спекти", "сперма", "спис",
    "спрут", "спів", "став", "старик", "стаття", "стегно", "стеля", "стен", "стерня", "стиль",
    "стисло", "стихія", "стовп", "стоячи", "страта", "стрий", "строфа", "струна", "стріла",
    "стукач", "стулка", "стусан", "стягти", "стіл", "стінка", "суворо", "сувій", "суглоб", "суддя",
    "судина", "судно", "судома", "сукно", "сумно", "сунути", "сутінь", "сухар", "сухо", "сушити",
    "сущий", "суєта", "схил", "схов", "схожий", "схрон", "схід", "сюжет", "сяючий", "сяяти",
    "сідати", "сікач", "сірко", "сірник", "сісти", "сіяти", "сіяч", "табло", "табу", "тавро",
    "така", "талант", "тандем", "танк", "танок", "танути", "тато", "тахта", "таїна", "таїти",
    "твань", "твар", "твердо", "театр", "теза", "тема", "темний", "темп", "темінь", "тепер",
    "тепло", "терези", "термос", "терор", "тертя", "тесати", "технік", "течія", "тигр", "тикати",
    "тисяча", "титар", "титул", "тихо", "тихцем", "тиша", "тлін", "товща", "того", "толока",
    "тонкий", "тонший", "тонус", "тополя", "торба", "трава", "тракт", "транс", "треба", "тренер",
    "тричі", "трон", "тропіки", "троян", "трудар", "труна", "трюк", "трішки", "туалет", "тугий",
    "тужний", "туніка", "тупати", "тупий", "турист", "туча", "тюрма", "тяга", "тягти", "тяжко",
    "тяжче", "тяжіти", "тяма", "тятива", "тіло", "тільце", "тітка", "тітчин", "тішити", "убір",
    "увесь", "уголос", "угору", "удар", "удача", "удвічі", "узвіз", "узяти", "укол", "украй",
    "улич", "уміло", "унизу", "уночі", "уніат", "унітаз", "унія", "уперше", "упир", "упокій",
    "ураз", "уранці", "урвище", "уряд", "услід", "усміх", "успіх", "уста", "усього", "усякий",
    "утроба", "уява", "уявити", "файл", "факт", "фальш", "фара", "фарба", "фарс", "фасон", "фата",
    "фермер", "флакон", "флот", "фляга", "фокус", "фонд", "фора", "фотель", "фото", "фрак",
    "франк", "фраза", "фреска", "футбол", "фікція", "філія", "фірма", "хабар", "халат", "халепа",
    "халупа", "хатка", "хвала", "хвіст", "хижка", "хитати", "хиткий", "хитро", "хлоп", "хмара",
    "хмиз", "ходити", "хоча", "хребет", "хрест", "хрипко", "хропти", "хруст", "хрущ", "хтось",
    "хутір", "хідник", "хімія", "царів", "цвісти", "цезар", "центр", "церква", "циклон", "цинізм",
    "цить", "цукор", "цупкий", "цівка", "цікаво", "цілий", "чавун", "чагар", "чадо", "чайка",
    "чайник", "чаклун", "чапля", "чарка", "часник", "часом", "часто", "чати", "чаша", "чашка",
    "чвара", "чекати", "чемно", "черва", "через", "черкас", "черінь", "чесати", "честь", "чийсь",
    "чимало", "чимраз", "чинний", "чирва", "число", "чисто", "читач", "член", "човник", "чоло",
    "чорний", "чорт", "чота", "чотири", "чувати", "чудно", "чудо", "чуже", "чужий", "чуйний",
    "чума", "чути", "чутка", "чітко", "шакал", "шалик", "шаман", "шанець", "шати", "шафа",
    "шахтар", "шашка", "швачка", "швед", "швидко", "шедевр", "шейх", "шеляг", "шерех", "шериф",
    "шиба", "шибка", "ширити", "широко", "ширше", "шитво", "шити", "шкала", "шквал", "шкода",
    "шкіпер", "шкірка", "шлик", "шлунок", "шляхта", "шовк", "шолом", "шофер", "шпарко", "шпигун",
    "шпиль", "шпичак", "шрифт", "штаб", "штамп", "штани", "штахет", "штик", "штраф", "шуба",
    "шубка", "шуліка", "шурхіт", "шхуна", "щабель", "щастя", "щезати", "щеня", "щиро", "щоби",
    "щодень", "щодня", "щомиті", "щораз", "щосили", "щічка", "ювелір", "ювілей", "юнга", "юрба",
    "юрист", "юрма", "юрта", "явити", "явище", "ягня", "ягода", "ягідка", "якір", "ямочка",
    "ярина", "ярка", "ярмо", "яруга", "ясла", "ясний", "ясніше", "ятаган", "яхта", "ячмінь",
    "ящик", "яєчня", "євро", "єдиний", "єство", "ідилія", "іззаду", "ікона", "імла", "індус",
    "іноді", "іній", "іржа", "іскра", "іслам", "істота", "їжак", "їжачок", "їздити", "їхній",
    "ґанок", "ґазда", "ґвалт", "ґрунт", "ґуля"
  ]
  unique_prefix_length := 4

end Dynex.Language
